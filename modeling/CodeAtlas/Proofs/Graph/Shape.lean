import CodeAtlas.Proofs.Graph.Cycles
import CodeAtlas.Proofs.Graph.Peeling
import CodeAtlas.Proofs.List.Basic
import CodeAtlas.Proofs.Text.Glyphs
import Mathlib.Data.List.Sort

/-!
# What the shape of a graph decides

Two graphs have the same shape if they have the same nodes and join the same pairs of them. In which order
nodes and edges came, how many edges join a pair and what these tell is no part of the shape, and so it does
not matter to the cycles and the layers. Neither does the order in which a table is gone through: what is
read from a table in any order is sorted before anything depends on it. The same is true of the files that
depend on each other, which are the shape of the graph with every node taken for its file.
-/

namespace CodeAtlas.SymbolGraph

/-- The same nodes, and edges between the same pairs of nodes. -/
structure SameShape (g h : SymbolGraph) : Prop where
  nodes : ∀ id, g.hasNode id = true ↔ h.hasNode id = true
  edges : ∀ a b, g.Points a b ↔ h.Points a b

/-- The cycles that are found when the nodes are listed in some order. -/
def cyclesListed (g : SymbolGraph) (ids : List String) : List (List String) :=
  searchAll g.targets ids.length ∅ (sorted ids)

/-- The remaining nodes that edges out of remaining nodes lead to. The edges are those of the nodes of
`sources`, in the order of this list. -/
def marks (g : SymbolGraph) (sources remaining : List String) : List String :=
  (sources.flatMap fun a => (g.dependencies a).map (·.target)).filter (remaining.contains ·)

/-- The layers of what remains, where each round goes through what remains in orders of its own: once to mark
what is pointed at, then to collect what is not marked, and once more to collect all if all is marked. What is
left for the next round may come in any order, too. -/
inductive Rounds (g : SymbolGraph) : (remaining : List String) → (layers : List (List String)) → Prop where
  | done : Rounds g [] []
  | last {remaining sources listed whole : List String} (hsome : remaining ≠ [])
      (hsources : sources.Perm remaining) (hlisted : listed.Perm remaining) (hwhole : whole.Perm remaining)
      (hmarked : listed.filter (fun id => !(g.marks sources remaining).contains id) = []) :
      Rounds g remaining [sorted whole]
  | round {remaining sources listed rest : List String} {layers : List (List String)}
      (hsources : sources.Perm remaining) (hlisted : listed.Perm remaining)
      (hfree : listed.filter (fun id => !(g.marks sources remaining).contains id) ≠ [])
      (hleft : rest.Perm (remaining.filter ((g.marks sources remaining).contains ·)))
      (hrest : Rounds g rest layers) :
      Rounds g remaining (sorted (listed.filter fun id => !(g.marks sources remaining).contains id) :: layers)

variable {g h : SymbolGraph} {ids remaining sources listed texts others : List String}
  {layers : List (List String)} {id : String}

theorem points_iff {a b : String} : g.Points a b ↔ (a, b) ∈ g.edges.map fun e => (e.source, e.target) := by
  simp [Points]

/-- Two graphs can be compared by going through their nodes and edges. -/
theorem sameShape_iff : SameShape g h ↔
    (g.nodes.map (·.symbolId) ⊆ h.nodes.map (·.symbolId) ∧ h.nodes.map (·.symbolId) ⊆ g.nodes.map (·.symbolId)) ∧
      (g.edges.map fun e => (e.source, e.target)) ⊆ (h.edges.map fun e => (e.source, e.target)) ∧
      (h.edges.map fun e => (e.source, e.target)) ⊆ g.edges.map fun e => (e.source, e.target) := by
  constructor
  · intro hshape
    refine ⟨⟨fun id => ?_, fun id => ?_⟩, fun ⟨a, b⟩ => ?_, fun ⟨a, b⟩ => ?_⟩
    · rw [← hasNode_iff, ← hasNode_iff]
      exact (hshape.nodes id).mp
    · rw [← hasNode_iff, ← hasNode_iff]
      exact (hshape.nodes id).mpr
    · rw [← points_iff, ← points_iff]
      exact (hshape.edges a b).mp
    · rw [← points_iff, ← points_iff]
      exact (hshape.edges a b).mpr
  · rintro ⟨⟨hnodes, hnodes'⟩, hedges, hedges'⟩
    refine ⟨fun id => ?_, fun a b => ?_⟩
    · rw [hasNode_iff, hasNode_iff]
      exact ⟨fun hid => hnodes hid, fun hid => hnodes' hid⟩
    · rw [points_iff, points_iff]
      exact ⟨fun hab => hedges hab, fun hab => hedges' hab⟩

instance : Decidable (SameShape g h) := decidable_of_iff _ sameShape_iff.symm

/-! ## Sorting -/

theorem sorted_perm (texts : List String) : (sorted texts).Perm texts := List.mergeSort_perm texts _

/-- In which order texts were listed cannot be told when they are sorted. -/
theorem sorted_eq_of_perm (hperm : texts.Perm others) : sorted texts = sorted others := by
  have hsorted : (sorted texts).Perm (sorted others) :=
    (sorted_perm texts).trans (hperm.trans (sorted_perm others).symm)
  exact hsorted.eq_of_pairwise' (pairwise_sorted texts) (pairwise_sorted others)

theorem sorted_eq_of_mem_iff (htexts : texts.Nodup) (hothers : others.Nodup)
    (hmem : ∀ text, text ∈ texts ↔ text ∈ others) : sorted texts = sorted others := by
  apply sorted_eq_of_perm
  exact (List.perm_ext_iff_of_nodup htexts hothers).mpr hmem

theorem sorted_filter (p : String → Bool) (texts : List String) :
    sorted (texts.filter p) = (sorted texts).filter p := by
  have hperm : (texts.filter p).Perm ((sorted texts).filter p) := ((sorted_perm texts).filter p).symm
  rw [sorted_eq_of_perm hperm]
  exact sorted_eq_self ((pairwise_sorted texts).filter p)

/-! ## Cycles -/

theorem SameShape.nodeIds_eq (hshape : SameShape g h) (hg : g.WellFormed) (hh : h.WellFormed) :
    g.nodeIds = h.nodeIds := by
  apply sorted_eq_of_mem_iff hg.nodesOnce hh.nodesOnce
  intro id
  rw [← hasNode_iff, ← hasNode_iff]
  exact hshape.nodes id

theorem SameShape.successors_eq (hshape : SameShape g h) :
    successors g.targets = successors h.targets := by
  funext id
  apply sorted_eq_of_mem_iff (nodup_eraseDups _) (nodup_eraseDups _)
  intro next
  have hnext := hshape.edges id next
  rw [← mem_successors, ← mem_successors] at hnext
  simpa only [successors, mem_sorted] using hnext

/-- The search looks at targets only through the successors in order. -/
theorem visit_congr {targets targets' : Std.HashMap String (List String)}
    (hsuccessors : successors targets = successors targets') (room : Nat) :
    visit targets room = visit targets' room := by
  induction room with
  | zero => rfl
  | succ room ih =>
      funext path seen id
      simp only [visit, ih, hsuccessors]

theorem searchAll_congr {targets targets' : Std.HashMap String (List String)}
    (hsuccessors : successors targets = successors targets') (room : Nat) (seen : Std.HashSet String)
    (ids : List String) : searchAll targets room seen ids = searchAll targets' room seen ids := by
  induction ids generalizing seen with
  | nil => rfl
  | cons id rest ih => simp only [searchAll, visit_congr hsuccessors, ih]

theorem cyclesListed_eq (hids : ids.Perm (g.nodes.map (·.symbolId))) : g.cyclesListed ids = g.cycles := by
  have hlength : ids.length = g.nodes.length := by
    rw [hids.length_eq, List.length_map]
  rw [cyclesListed, sorted_eq_of_perm hids, hlength]
  rfl

theorem SameShape.cycles_eq (hshape : SameShape g h) (hg : g.WellFormed) (hh : h.WellFormed) :
    g.cycles = h.cycles := by
  have hids := hshape.nodeIds_eq hg hh
  have hlength : g.nodes.length = h.nodes.length := by
    calc
      g.nodes.length = g.nodeIds.length := by simp [nodeIds, sorted]
      _ = h.nodeIds.length := by rw [hids]
      _ = h.nodes.length := by simp [nodeIds, sorted]
  rw [cycles, cycles, hids, hlength]
  exact searchAll_congr hshape.successors_eq _ _ _

/-! ## Layers -/

theorem SameShape.pointed_eq (hshape : SameShape g h) (remaining : List String) :
    g.pointed remaining = h.pointed remaining := by
  funext id
  rw [Bool.eq_iff_iff, pointed_iff, pointed_iff]
  simp only [hshape.edges]

theorem Peels.sameShape (hpeels : Peels g remaining layers) (hshape : SameShape g h) :
    Peels h remaining layers := by
  induction hpeels with
  | done => exact .done
  | last hsome hall =>
      rw [hshape.pointed_eq] at hall
      exact .last hsome hall
  | round hfree _ ih =>
      rw [hshape.pointed_eq] at hfree ih ⊢
      exact .round hfree ih

theorem SameShape.layers_eq (hshape : SameShape g h) (hg : g.WellFormed) (hh : h.WellFormed) :
    g.layers = h.layers := by
  have hpeels : Peels h h.nodeIds g.layers := by
    rw [← hshape.nodeIds_eq hg hh]
    exact (hg.peels_iff.mpr rfl).sameShape hshape
  exact hh.peels_iff.mp hpeels

/-! ## Layers by rounds in any order -/

theorem contains_marks (hsources : sources.Perm remaining) (hid : id ∈ remaining) :
    (g.marks sources remaining).contains id = g.pointed remaining id := by
  rw [Bool.eq_iff_iff, pointed_iff, List.contains_iff_mem, marks, List.mem_filter, List.mem_flatMap]
  have hpoints (a : String) : id ∈ (g.dependencies a).map (·.target) ↔ g.Points a id := by
    rw [← mem_successors, SymbolGraph.successors_eq, mem_sorted, List.mem_eraseDups]
  simp only [hpoints, hsources.mem_iff, List.contains_iff_mem]
  exact and_iff_left hid

theorem pointed_perm (hperm : remaining.Perm ids) : g.pointed remaining = g.pointed ids := by
  funext id
  rw [Bool.eq_iff_iff, pointed_iff, pointed_iff]
  simp only [hperm.mem_iff]

theorem filter_marks (hsources : sources.Perm remaining) (hlisted : listed.Perm remaining) :
    listed.filter ((g.marks sources remaining).contains ·) = listed.filter (g.pointed remaining) ∧
      listed.filter (fun id => !(g.marks sources remaining).contains id) =
        listed.filter fun id => !g.pointed remaining id := by
  constructor <;>
  · apply List.filter_congr
    intro id hid
    rw [contains_marks hsources (hlisted.mem_iff.mp hid)]

/-- Rounds come out as if all that remains had been in order from the beginning. -/
theorem Rounds.peels (hrounds : Rounds g remaining layers) : Peels g (sorted remaining) layers := by
  induction hrounds with
  | done =>
      rw [sorted_eq_self .nil]
      exact .done
  | @last remaining sources listed whole hsome hsources hlisted hwhole hmarked =>
      rw [sorted_eq_of_perm hwhole]
      refine .last (fun hnil => hsome ?_) fun id hid => ?_
      · exact List.perm_nil.mp (hnil ▸ (sorted_perm remaining).symm)
      · rw [(filter_marks hsources hlisted).2, List.filter_eq_nil_iff] at hmarked
        have hpointed := hmarked id (hlisted.mem_iff.mpr (mem_sorted.mp hid))
        rw [pointed_perm (sorted_perm remaining)]
        simpa using hpointed
  | @round remaining sources listed rest layers hsources hlisted hfree hleft _ ih =>
      have hpointed := pointed_perm (g := g) (sorted_perm remaining)
      have hlayer : sorted (listed.filter fun id => !(g.marks sources remaining).contains id) =
          (sorted remaining).filter fun id => !g.pointed (sorted remaining) id := by
        rw [(filter_marks hsources hlisted).2, sorted_filter, sorted_eq_of_perm hlisted, hpointed]
      have hrest : sorted rest = (sorted remaining).filter (g.pointed (sorted remaining)) := by
        rw [sorted_eq_of_perm hleft, (filter_marks hsources (List.Perm.refl remaining)).1, sorted_filter,
          hpointed]
      rw [hlayer]
      rw [hrest] at ih
      refine .round ?_ ih
      rw [← hlayer]
      intro hnil
      exact hfree (List.perm_nil.mp (hnil ▸ (sorted_perm _).symm))

theorem Peels.rounds (hpeels : Peels g ids layers) (hids : ids.Pairwise (· ≤ ·))
    (hperm : remaining.Perm ids) : Rounds g remaining layers := by
  induction hpeels generalizing remaining with
  | done =>
      obtain rfl := List.perm_nil.mp hperm
      exact .done
  | @last ids hsome hall =>
      have hwhole : ids = sorted remaining := by
        rw [sorted_eq_of_perm hperm, sorted_eq_self hids]
      rw [hwhole]
      refine .last (fun hnil => hsome ?_) (.refl _) (.refl _) (.refl _) ?_
      · exact List.perm_nil.mp (hnil ▸ hperm.symm)
      · rw [(filter_marks (.refl _) (.refl _)).2, pointed_perm hperm, List.filter_eq_nil_iff]
        intro id hid
        simpa using hall id (hperm.mem_iff.mp hid)
  | @round ids layers hfree _ ih =>
      have hmarks := filter_marks (g := g) (List.Perm.refl remaining) (List.Perm.refl remaining)
      rw [pointed_perm hperm] at hmarks
      have hlayer : ids.filter (fun id => !g.pointed ids id) =
          sorted (remaining.filter fun id => !(g.marks remaining remaining).contains id) := by
        rw [hmarks.2, sorted_filter, sorted_eq_of_perm hperm, sorted_eq_self hids]
      rw [hlayer]
      refine .round (.refl _) (.refl _) (fun hnil => hfree ?_) (.refl _) (ih (hids.filter _) ?_)
      · rw [hlayer, hnil, sorted_eq_self .nil]
      · rw [hmarks.1]
        exact hperm.filter _

/-- Rounds in any order come to an end, and always to the same. -/
theorem WellFormed.rounds_iff (hg : g.WellFormed) (hids : ids.Perm (g.nodes.map (·.symbolId))) :
    Rounds g ids layers ↔ layers = g.layers := by
  have hsorted : sorted ids = g.nodeIds := sorted_eq_of_perm hids
  rw [← hg.peels_iff, ← hsorted]
  constructor
  · exact Rounds.peels
  · intro hpeels
    exact hpeels.rounds (pairwise_sorted ids) (sorted_perm ids).symm

/-- Graphs of the same shape have the same cycles and the same layers, in the same order, whichever calls have
made them and in whatever order their tables are gone through. -/
theorem shape_decides_cycles_and_layers (calls others : List GraphCall)
    (hshape : SameShape (after calls) (after others)) :
    (after calls).cycles = (after others).cycles ∧ (after calls).layers = (after others).layers ∧
      ∀ ids, ids.Perm ((after calls).nodes.map (·.symbolId)) →
        (after calls).cyclesListed ids = (after others).cycles ∧
        ∀ layers, Rounds (after calls) ids layers ↔ layers = (after others).layers := by
  have hg := (records_after calls).wellFormed
  have hh := (records_after others).wellFormed
  have hcycles := hshape.cycles_eq hg hh
  have hlayers := hshape.layers_eq hg hh
  refine ⟨hcycles, hlayers, fun ids hids => ⟨?_, fun layers => ?_⟩⟩
  · rw [cyclesListed_eq hids, hcycles]
  · rw [hg.rounds_iff hids, hlayers]

def triangle : List GraphCall := drawn ["a", "b", "c", "d"] [("a", "b"), ("b", "c"), ("c", "a"), ("d", "a")]

/-- The same graph, with its nodes and edges in another order, with edges of two kinds between a pair, and with
observations that make no edge. -/
def triangleAgain : List GraphCall :=
  drawn ["d", "c"] [("c", "a"), ("d", "d")] ++ drawn ["b", "a", "c"] [("d", "a"), ("c", "a"), ("b", "c")] ++
    [.addLink ⟨"a", "b", .uses, 0, some ⟨"f", ⟨1, 0⟩, ⟨1, 1⟩⟩, ⟨3, true, false, .read⟩⟩] ++
    drawn [] [("a", "b"), ("b", "z")]

theorem triangle_same_again : SameShape (after triangle) (after triangleAgain) ∧
    (after triangle).edges ≠ (after triangleAgain).edges ∧
    (after triangle).cycles = (after triangleAgain).cycles ∧
    (after triangle).layers = (after triangleAgain).layers := by
  have hshape : SameShape (after triangle) (after triangleAgain) := by decide +kernel
  obtain ⟨hcycles, hlayers, -⟩ := shape_decides_cycles_and_layers triangle triangleAgain hshape
  refine ⟨hshape, ?_, hcycles, hlayers⟩
  intro hsame
  exact absurd (congrArg List.length hsame) (by decide +kernel)

/-! ## Files -/

/-- Notes the file that an edge leads to, unless it is the file that the edge comes from. -/
def noteEdge? (g : SymbolGraph) (file : String) (noted : Std.HashMap String (Std.HashSet String)) (e : Edge) :
    Option (Std.HashMap String (Std.HashSet String)) := do
  let target ← g.node? e.target
  some (if target.fileId = file then noted else note noted (file, target.fileId))

/-- Notes the files that the edges of a node lead to. Both nodes of an edge have to be found. -/
def noteNode? (g : SymbolGraph) (noted : Std.HashMap String (Std.HashSet String)) (id : String) :
    Option (Std.HashMap String (Std.HashSet String)) := do
  let source ← g.node? id
  (g.dependencies id).foldlM (g.noteEdge? source.fileId) noted

/-- What is noted when the nodes with edges are gone through in this order. -/
def filesNoted? (g : SymbolGraph) (sources : List String) : Option (Std.HashMap String (Std.HashSet String)) :=
  sources.foldlM g.noteNode? ∅

/-- Adds the members of the set of a file to its list, one by one, and sorts the list. -/
def fillList (lists : Std.HashMap String (List String)) (file : String) (members : List String) :
    Std.HashMap String (List String) :=
  (members.foldl (fun lists b => lists.insert file (lists.getD file [] ++ [b])) lists).modify file sorted

/-- The lists of files, filled in this order. -/
def listsOf (files : List String) (members : String → List String) : Std.HashMap String (List String) :=
  files.foldl (fun lists file => fillList lists file (members file)) ∅

section Files

variable {lists : Std.HashMap String (List String)} {files members : List String} {file k a b : String}

theorem getElem?_foldl_append (hsome : members ≠ []) :
    (members.foldl (fun lists b => lists.insert file (lists.getD file [] ++ [b])) lists)[k]? =
      if file = k then some (lists.getD file [] ++ members) else lists[k]? := by
  induction members generalizing lists with
  | nil => exact absurd rfl hsome
  | cons b rest ih =>
      rw [List.foldl_cons]
      by_cases hrest : rest = []
      · simp [hrest, Std.HashMap.getElem?_insert]
      · rw [ih hrest, Std.HashMap.getD_insert_self, Std.HashMap.getElem?_insert, List.append_assoc,
          List.singleton_append]
        by_cases hfile : file = k <;> simp [hfile]

theorem getElem?_fillList (hnew : file ∉ lists) (hsome : members ≠ []) :
    (fillList lists file members)[k]? = if file = k then some (sorted members) else lists[k]? := by
  rw [fillList, Std.HashMap.getElem?_modify, getElem?_foldl_append hsome, getElem?_foldl_append hsome,
    Std.HashMap.getD_eq_fallback hnew]
  by_cases hfile : file = k <;> simp [hfile]

/-- Each file is given the sorted list of its members. -/
theorem getElem?_listsOf {members : String → List String} (hfiles : files.Nodup)
    (hsome : ∀ file ∈ files, members file ≠ []) :
    (listsOf files members)[k]? = if k ∈ files then some (sorted (members k)) else none := by
  have hfold (lists : Std.HashMap String (List String)) (hnew : ∀ file ∈ files, file ∉ lists) :
      (files.foldl (fun lists file => fillList lists file (members file)) lists)[k]? =
        if k ∈ files then some (sorted (members k)) else lists[k]? := by
    induction files generalizing lists with
    | nil => rfl
    | cons file rest ih =>
        obtain ⟨hfile, hrest⟩ := List.nodup_cons.mp hfiles
        obtain ⟨hsomeFile, hsomeRest⟩ := List.forall_mem_cons.mp hsome
        obtain ⟨hnewFile, hnewRest⟩ := List.forall_mem_cons.mp hnew
        have hfill (k : String) := getElem?_fillList (k := k) hnewFile hsomeFile
        rw [List.foldl_cons, ih hrest hsomeRest, hfill]
        · by_cases hk : file = k
          · subst hk
            simp [hfile]
          · simp [hk, Ne.symm hk]
        · intro other hother hmem
          have hne : file ≠ other := fun h => hfile (h ▸ hother)
          rw [Std.HashMap.mem_iff_isSome_getElem?, hfill, if_neg hne, ← Std.HashMap.mem_iff_isSome_getElem?] at hmem
          exact hnewRest other hother hmem
  exact (hfold ∅ (by simp)).trans (by simp)

/-- The pairs of different files of the edges out of a node. -/
def filePairsOf (g : SymbolGraph) (id : String) : List (String × String) :=
  ((g.dependencies id).map fun e => (g.fileOf e.source, g.fileOf e.target)).filter fun p => p.1 != p.2

theorem mem_filePairs : (a, b) ∈ g.filePairs ↔
    a ≠ b ∧ ∃ e ∈ g.edges, g.fileOf e.source = a ∧ g.fileOf e.target = b := by
  simp [filePairs, and_comm]

section Ends

variable (hends : ∀ e ∈ g.edges, g.hasNode e.source = true ∧ g.hasNode e.target = true)
include hends

theorem noteNode?_eq_some (hid : g.hasNode id = true) (noted : Std.HashMap String (Std.HashSet String)) :
    g.noteNode? noted id = some ((g.filePairsOf id).foldl note noted) := by
  obtain ⟨source, hsource, hfrom⟩ := node?_eq_some_fileOf hid
  have hedges : ∀ e ∈ g.dependencies id, e.source = id ∧ g.hasNode e.target = true := by
    intro e he
    obtain ⟨hmem, hkey⟩ := List.mem_filter.mp he
    exact ⟨by simpa using hkey, (hends e hmem).2⟩
  rw [noteNode?, hsource, filePairsOf, Option.bind_eq_bind, Option.bind_some, ← hfrom]
  generalize g.dependencies id = edges at hedges ⊢
  induction edges generalizing noted with
  | nil => rfl
  | cons e rest ih =>
      obtain ⟨⟨hkey, hnode⟩, hrest⟩ := List.forall_mem_cons.mp hedges
      obtain ⟨target, htarget, hto⟩ := node?_eq_some_fileOf hnode
      rw [List.foldlM_cons, noteEdge?, htarget, Option.bind_eq_bind, Option.bind_eq_bind, Option.bind_some,
        Option.bind_some, ih _ hrest, List.map_cons, hkey, hto]
      by_cases hsame : target.fileId = g.fileOf id
      · simp [hsame]
      · simp [hsame, Ne.symm hsame]

theorem filesNoted?_eq_some (hsources : ∀ id ∈ sources, g.hasNode id = true) :
    g.filesNoted? sources = some ((sources.flatMap g.filePairsOf).foldl note ∅) := by
  have hfold (noted : Std.HashMap String (Std.HashSet String)) :
      sources.foldlM g.noteNode? noted = some ((sources.flatMap g.filePairsOf).foldl note noted) := by
    induction sources generalizing noted with
    | nil => rfl
    | cons id rest ih =>
        obtain ⟨hnode, hrest⟩ := List.forall_mem_cons.mp hsources
        rw [List.foldlM_cons, noteNode?_eq_some hends hnode, Option.bind_eq_bind, Option.bind_some, ih hrest,
          List.flatMap_cons, List.foldl_append]
  exact hfold ∅

end Ends

theorem mem_flatMap_filePairsOf (hsources : ∀ id, id ∈ sources ↔ ∃ e ∈ g.edges, e.source = id) :
    (a, b) ∈ sources.flatMap g.filePairsOf ↔ (a, b) ∈ g.filePairs := by
  simp only [List.mem_flatMap, filePairsOf, filePairs, dependencies, List.mem_filter, List.mem_map, beq_iff_eq]
  constructor
  · rintro ⟨id, -, ⟨e, ⟨he, -⟩, hpair⟩, hne⟩
    exact ⟨⟨e, he, hpair⟩, hne⟩
  · rintro ⟨⟨e, he, hpair⟩, hne⟩
    exact ⟨e.source, (hsources _).mpr ⟨e, he, rfl⟩, ⟨e, ⟨he, rfl⟩, hpair⟩, hne⟩

/-- The files that a file depends on, in order. -/
def dependenciesOf (g : SymbolGraph) (file : String) : List String :=
  sorted ((g.filePairs.filter (·.1 == file)).map (·.2)).eraseDups

theorem mem_dependenciesOf : b ∈ g.dependenciesOf a ↔ (a, b) ∈ g.filePairs := by
  simp [dependenciesOf, mem_sorted, List.mem_eraseDups]

theorem dependenciesOf_ne_nil_iff : g.dependenciesOf a ≠ [] ↔ a ∈ g.filePairs.map (·.1) := by
  rw [Ne, List.eq_nil_iff_forall_not_mem]
  simp [mem_dependenciesOf]

theorem mem_fileDependencies {deps : List String} :
    (a, deps) ∈ g.fileDependencies ↔ deps = g.dependenciesOf a ∧ deps ≠ [] := by
  constructor
  · intro hdeps
    obtain ⟨file, hfile, hentry⟩ := List.mem_map.mp hdeps
    obtain ⟨rfl, rfl⟩ := Prod.mk.inj hentry
    rw [mem_sorted, List.mem_eraseDups] at hfile
    exact ⟨rfl, dependenciesOf_ne_nil_iff.mpr hfile⟩
  · rintro ⟨rfl, hsome⟩
    have hfile := dependenciesOf_ne_nil_iff.mp hsome
    exact List.mem_map.mpr ⟨a, mem_sorted.mpr (List.mem_eraseDups.mpr hfile), rfl⟩

theorem nodup_sorted_eraseDups (texts : List String) : (sorted texts.eraseDups).Nodup :=
  (sorted_perm _).nodup_iff.mpr (nodup_eraseDups _)

theorem nodup_dependenciesOf (g : SymbolGraph) (file : String) : (g.dependenciesOf file).Nodup :=
  nodup_sorted_eraseDups _

theorem increasing_dependenciesOf (g : SymbolGraph) (file : String) :
    ((g.dependenciesOf file).map bytesOfText).Pairwise (· < ·) := by
  rw [List.pairwise_map]
  apply ((pairwise_sorted _).and (g.nodup_dependenciesOf file)).imp
  rintro a b ⟨hle, hne⟩
  exact bytesOfText_lt (Std.lt_of_le_of_ne hle hne)

theorem nodup_files (g : SymbolGraph) : (g.fileDependencies.map (·.1)).Nodup := by
  have hkeys : g.fileDependencies.map (·.1) = sorted (g.filePairs.map (·.1)).eraseDups := by
    simp [fileDependencies, Function.comp_def]
  rw [hkeys]
  exact nodup_sorted_eraseDups _

theorem mem_filePairs_iff (hends : ∀ e ∈ g.edges, g.hasNode e.source = true ∧ g.hasNode e.target = true) :
    (a, b) ∈ g.filePairs ↔ a ≠ b ∧ ∃ e ∈ g.edges, ∃ source target, g.node? e.source = some source ∧
      g.node? e.target = some target ∧ source.fileId = a ∧ target.fileId = b := by
  rw [mem_filePairs]
  refine and_congr_right fun _ => exists_congr fun e => and_congr_right fun he => ?_
  obtain ⟨source, hsource, hfrom⟩ := node?_eq_some_fileOf (hends e he).1
  obtain ⟨target, htarget, hto⟩ := node?_eq_some_fileOf (hends e he).2
  simp [hsource, htarget, hfrom, hto]

section Listing

variable {members : String → List String} {deps : List String}

/-- What is noted comes out as the same lists, whatever the orders. -/
theorem getElem?_listsOf_iff (hsources : ∀ id, id ∈ sources ↔ ∃ e ∈ g.edges, e.source = id)
    (hfiles : files.Perm ((sources.flatMap g.filePairsOf).foldl note ∅).keys)
    (hmembers : ∀ a, (members a).Perm (((sources.flatMap g.filePairsOf).foldl note ∅).getD a ∅).toList) :
    (listsOf files members)[a]? = some deps ↔ (a, deps) ∈ g.fileDependencies := by
  have hnoted (a b : String) : b ∈ members a ↔ b ∈ g.dependenciesOf a := by
    rw [(hmembers a).mem_iff, Std.HashSet.mem_toList, mem_getD_foldl_note, mem_flatMap_filePairsOf hsources,
      mem_dependenciesOf]
    simp
  have hlist : sorted (members a) = g.dependenciesOf a := by
    rw [sorted_eq_of_mem_iff ((hmembers a).nodup_iff.mpr (nodup_toList _)) (g.nodup_dependenciesOf a) (hnoted a)]
    exact sorted_eq_self (pairwise_sorted _)
  have hkeys (a : String) : a ∈ files ↔ g.dependenciesOf a ≠ [] := by
    rw [hfiles.mem_iff, Std.HashMap.mem_keys, mem_foldl_note, dependenciesOf_ne_nil_iff]
    simp [mem_flatMap_filePairsOf hsources]
  have hsome : ∀ file ∈ files, members file ≠ [] := by
    intro file hfile
    obtain ⟨b, hb⟩ := List.exists_mem_of_ne_nil _ ((hkeys file).mp hfile)
    exact List.ne_nil_of_mem ((hnoted file b).mpr hb)
  rw [getElem?_listsOf (hfiles.nodup_iff.mpr Std.HashMap.nodup_keys) hsome, mem_fileDependencies, hlist]
  by_cases hnone : g.dependenciesOf a = []
  · rw [if_neg (mt (hkeys a).mp (not_not.mpr hnone)), hnone]
    simp
  · rw [if_pos ((hkeys a).mpr hnone), Option.some_inj]
    exact ⟨fun h => ⟨h.symm, h ▸ hnone⟩, fun h => h.1.symm⟩

end Listing

/-- A file depends on the other files that an edge leads to from one of its symbols, and on no more. Each file
that depends on any is listed once, with what it depends on in increasing order of bytes. The lists are the same
in whatever order the tables are gone through: the edges by their sources, the files that have been noted, and
what has been noted for each; and no node that is looked up on the way is missing. -/
theorem files_depend_as_edges_lead (calls : List GraphCall) :
    let g := after calls
    (∀ a b, (∃ deps, (a, deps) ∈ g.fileDependencies ∧ b ∈ deps) ↔
      a ≠ b ∧ ∃ e ∈ g.edges, ∃ source target, g.node? e.source = some source ∧
        g.node? e.target = some target ∧ source.fileId = a ∧ target.fileId = b) ∧
    (∀ a deps, (a, deps) ∈ g.fileDependencies → deps ≠ [] ∧ (deps.map bytesOfText).Pairwise (· < ·)) ∧
    (g.fileDependencies.map (·.1)).Nodup ∧
    ∀ sources : List String, (∀ id, id ∈ sources ↔ ∃ e ∈ g.edges, e.source = id) →
      ∃ noted, g.filesNoted? sources = some noted ∧
        ∀ (files : List String) (members : String → List String), files.Perm noted.keys →
          (∀ a, (members a).Perm (noted.getD a ∅).toList) →
            ∀ a deps, (listsOf files members)[a]? = some deps ↔ (a, deps) ∈ g.fileDependencies := by
  intro g
  have hg : g.WellFormed := (records_after calls).wellFormed
  refine ⟨fun a b => ?_, fun a deps hdeps => ?_, g.nodup_files, fun sources hsources => ?_⟩
  · rw [← mem_filePairs_iff hg.ends, ← mem_dependenciesOf]
    constructor
    · rintro ⟨deps, hdeps, hb⟩
      exact (mem_fileDependencies.mp hdeps).1 ▸ hb
    · intro hb
      exact ⟨_, mem_fileDependencies.mpr ⟨rfl, List.ne_nil_of_mem hb⟩, hb⟩
  · obtain ⟨rfl, hsome⟩ := mem_fileDependencies.mp hdeps
    exact ⟨hsome, g.increasing_dependenciesOf a⟩
  · have hnodes : ∀ id ∈ sources, g.hasNode id = true := by
      intro id hid
      obtain ⟨e, he, rfl⟩ := (hsources id).mp hid
      exact (hg.ends e he).1
    exact ⟨_, filesNoted?_eq_some hg.ends hnodes, fun files members hfiles hmembers a deps =>
      getElem?_listsOf_iff hsources hfiles hmembers⟩

end Files

def moved : List GraphCall :=
  [.addNode { (default : Node) with symbolId := "a", fileId := "f" },
    .addNode { (default : Node) with symbolId := "b", fileId := "g" },
    .addNode { (default : Node) with symbolId := "c", fileId := "g" }] ++
    drawn [] [("a", "b"), ("a", "c"), ("b", "c")] ++
    [.addNode { (default : Node) with symbolId := "c", fileId := "h" }]

/-- A symbol that is seen again in another file takes its edges there. -/
theorem moved_symbol_followed : (∀ id, id ∈ ["b", "a"] ↔ ∃ e ∈ (after moved).edges, e.source = id) ∧
    (∃ deps, ("g", deps) ∈ (after moved).fileDependencies ∧ "h" ∈ deps) ∧
    ∃ noted, (after moved).filesNoted? ["b", "a"] = some noted ∧
      ∀ (files : List String) (members : String → List String), files.Perm noted.keys →
        (∀ a, (members a).Perm (noted.getD a ∅).toList) →
          ∀ a deps, (listsOf files members)[a]? = some deps ↔ (a, deps) ∈ (after moved).fileDependencies := by
  have hsources : ∀ id, id ∈ ["b", "a"] ↔ ∃ e ∈ (after moved).edges, e.source = id := by
    have hedges : (after moved).edges.map (·.source) = ["a", "a", "b"] := by decide +kernel
    intro id
    rw [← List.mem_map, hedges]
    simp [or_comm]
  obtain ⟨hlead, -, -, hlists⟩ := files_depend_as_edges_lead moved
  have hpair : ("g", "h") ∈ (after moved).filePairs := by decide +kernel
  have hmoved := (mem_filePairs_iff (records_after moved).wellFormed.ends).mp hpair
  exact ⟨hsources, (hlead "g" "h").mpr hmoved, hlists ["b", "a"] hsources⟩

end CodeAtlas.SymbolGraph
