import CodeAtlas.Proofs.Graph.Building
import CodeAtlas.Proofs.List.Basic

/-!
# Projects that share a graph

Names are looked up among all files, and two projects may use the same ones. What keeps projects apart
are identifiers: a file that has the identifier of another, or a symbol that has, is of the same
project. Then the part of the graph under the symbols of a project is made by the files of the project
alone. A pass over one of them takes the same step in the whole graph and in the part, and a pass over
any other file leaves the part as it is.
-/

namespace CodeAtlas

/-- The node without the figure that depends on how many nodes there are. -/
def Node.besidesCentrality (n : Node) : Node :=
  { n with figures := { n.figures with centrality := 0 } }

namespace SymbolGraph

/-- How many edges end at an identifier, and how many begin there. -/
def couplingOf (g : SymbolGraph) (id : String) : Coupling :=
  ⟨g.edges.countP (·.target == id), g.edges.countP (·.source == id)⟩

theorem getD_afferent (g : SymbolGraph) (id : String) :
    (g.edges.foldl (fun found e => found.insert e.target (found.getD e.target 0 + 1))
      (∅ : Std.HashMap String Nat)).getD id 0 = (g.couplingOf id).afferent := by
  rw [getD_foldl_count, Std.HashMap.getD_empty, Nat.zero_add, couplingOf]

theorem length_getD_targets (g : SymbolGraph) (id : String) :
    (g.targets.getD id []).length = (g.couplingOf id).efferent := by
  rw [getD_targets, List.length_map, length_dependencies, couplingOf]

theorem coupling_eq (g : SymbolGraph) : g.coupling = g.nodeIds.map fun id => (id, g.couplingOf id) := by
  unfold coupling
  simp only [getD_afferent, length_getD_targets]

theorem nodes_computeFigures (g : SymbolGraph) : g.computeFigures.nodes = g.nodes.map fun n =>
    let c := g.couplingOf n.symbolId
    { n with figures := { n.figures with
      fanIn := c.afferent
      fanOut := c.efferent
      centrality := g.centrality c
      stability := c.instability } } := by
  unfold computeFigures
  simp only [getD_afferent, length_getD_targets]

end SymbolGraph

namespace Build

open SymbolGraph

/-- Files with one identifier are of one project, and so are symbols with one identifier. -/
structure Apart (files : List FileRecord) : Prop where
  ofFiles : ∀ f ∈ files, ∀ f' ∈ files, f.fileId = f'.fileId → f.projectId = f'.projectId
  ofSymbols : ∀ f ∈ files, ∀ f' ∈ files, ∀ s ∈ f.symbols, ∀ s' ∈ f'.symbols,
    s.id = s'.id → f.projectId = f'.projectId

def ofProject (files : List FileRecord) (p : String) : List FileRecord :=
  files.filter (·.projectId == p)

/-- Whether a symbol of a project has an identifier. -/
def owns (files : List FileRecord) (p id : String) : Bool := isSymbol (ofProject files p) id

/-- The second graph is the part of the first under the identifiers of a project. Both ends of an edge
are of the project or neither is, and the nodes under its identifiers are those that name it. -/
structure Part (own : String → Bool) (p : String) (g h : SymbolGraph) : Prop where
  nodes : h.nodes = g.nodes.filter fun n => own n.symbolId
  edges : h.edges = g.edges.filter fun e => own e.source
  joins : ∀ e ∈ g.edges, own e.target = own e.source
  named : ∀ n ∈ g.nodes, own n.symbolId = (n.projectId == p)

variable {files added : List FileRecord} {f : FileRecord} {s : Symbol} {p id : String}
  {own : String → Bool} {g h : SymbolGraph} {l : Link}

theorem mem_ofProject : f ∈ ofProject files p ↔ f ∈ files ∧ f.projectId = p := by
  simp [ofProject]

/-- The symbols of a file are owned by its project and by no other. -/
theorem Apart.owns_eq (hapart : Apart files) (hf : f ∈ files) (hs : s ∈ f.symbols) :
    owns files p s.id = (f.projectId == p) := by
  rw [Bool.eq_iff_iff, owns, isSymbol_iff, beq_iff_eq]
  constructor
  · rintro ⟨f', hf', s', hs', hid⟩
    obtain ⟨hmem, rfl⟩ := mem_ofProject.mp hf'
    exact hapart.ofSymbols f hf f' hmem s hs s' hs' hid.symm
  · rintro rfl
    exact ⟨f, mem_ofProject.mpr ⟨hf, rfl⟩, s, hs, rfl⟩

/-! ## Names mean the same among the files of the project -/

theorem Apart.symbolsOfFile_eq (hapart : Apart files) (hf : f ∈ files) :
    symbolsOfFile (ofProject files f.projectId) f.fileId = symbolsOfFile files f.fileId := by
  unfold symbolsOfFile ofProject
  rw [List.filter_filter]
  refine congrArg (List.flatMap _) (List.filter_congr fun f' hf' => ?_)
  by_cases hid : f'.fileId = f.fileId
  · simp [hid, hapart.ofFiles f' hf' f hf hid]
  · simp [hid]

theorem symbolsOfProject_ofProject (files : List FileRecord) (p : String) :
    symbolsOfProject (ofProject files p) p = symbolsOfProject files p := by
  simp [symbolsOfProject, ofProject, List.filter_filter]

theorem Apart.resolve?_eq (hapart : Apart files) (hf : f ∈ files) :
    resolve? (ofProject files f.projectId) f = resolve? files f := by
  funext name rank
  unfold resolve?
  rw [hapart.symbolsOfFile_eq hf, symbolsOfProject_ofProject]

theorem Apart.typeNamed?_eq (hapart : Apart files) (hf : f ∈ files) :
    typeNamed? (ofProject files f.projectId) f = typeNamed? files f := by
  funext s name
  unfold typeNamed?
  rw [hapart.symbolsOfFile_eq hf]

theorem Apart.ofUsage?_eq (hapart : Apart files) (hf : f ∈ files) :
    ofUsage? (ofProject files f.projectId) f = ofUsage? files f := by
  funext u
  unfold ofUsage? usageLink?
  rw [hapart.resolve?_eq hf]

theorem Apart.addDeclaration_eq (hapart : Apart files) (hf : f ∈ files) :
    addDeclaration (ofProject files f.projectId) f = addDeclaration files f := by
  funext g s
  unfold addDeclaration namedBases typeUses containment?
  rw [hapart.resolve?_eq hf, hapart.typeNamed?_eq hf]

theorem Apart.addFile_eq (hapart : Apart files) (hf : f ∈ files) :
    addFile (ofProject files f.projectId) g f = addFile files g f := by
  unfold addFile
  rw [hapart.ofUsage?_eq hf, hapart.addDeclaration_eq hf]

/-- What a pass over a file finds lies in the project of the file. -/
theorem Apart.owns_of_finds (hapart : Apart files) {q : String} (hl : Finds (ofProject files q) l) :
    owns files p l.source = (q == p) ∧ owns files p l.target = (q == p) := by
  have hend {id : String} (hid : isSymbol (ofProject files q) id = true) :
      owns files p id = (q == p) := by
    obtain ⟨f, hf, s, hs, rfl⟩ := isSymbol_iff.mp hid
    obtain ⟨hmem, rfl⟩ := mem_ofProject.mp hf
    exact hapart.owns_eq hmem hs
  exact ⟨hend hl.source, hend hl.target⟩

/-! ## What a step changes of a part -/

namespace Part

theorem empty : Part own p .empty .empty := by
  constructor <;> simp [SymbolGraph.empty]

theorem hasNode (hpart : Part own p g h) (hid : own id = true) : h.hasNode id = g.hasNode id := by
  unfold SymbolGraph.hasNode
  rw [hpart.nodes, List.any_filter]
  refine congrArg g.nodes.any (funext fun n => ?_)
  by_cases hsame : n.symbolId = id
  · simp [hsame, hid]
  · simp [hsame]

theorem named_of_mem_addNode (hpart : Part own p g h) {n m : Node}
    (hn : own n.symbolId = (n.projectId == p)) (hm : m ∈ (g.addNode n).nodes) :
    own m.symbolId = (m.projectId == p) := by
  unfold SymbolGraph.addNode at hm
  split at hm
  · obtain ⟨k, hk, rfl⟩ := List.mem_map.mp hm
    split
    · exact hn
    · exact hpart.named k hk
  · rcases List.mem_append.mp hm with hold | hnew
    · exact hpart.named m hold
    · rwa [List.mem_singleton.mp hnew]

theorem addNode (hpart : Part own p g h) {n : Node} (hown : own n.symbolId = true)
    (hn : n.projectId = p) : Part own p (g.addNode n) (h.addNode n) where
  nodes := by
    unfold SymbolGraph.addNode
    rw [hpart.hasNode hown]
    split
    · rw [List.filter_map, hpart.nodes]
      refine congrArg (List.map _) (List.filter_congr fun m _ => ?_)
      by_cases hsame : m.symbolId = n.symbolId <;> simp [hsame]
    · simp [hpart.nodes, hown]
  edges := by rw [edges_addNode, edges_addNode, hpart.edges]
  joins := by simpa only [edges_addNode] using hpart.joins
  named _ := hpart.named_of_mem_addNode (by simp [hown, hn])

theorem addNode_other (hpart : Part own p g h) {n : Node} (hown : own n.symbolId = false)
    (hn : n.projectId ≠ p) : Part own p (g.addNode n) h where
  nodes := by
    unfold SymbolGraph.addNode
    split
    · rw [hpart.nodes, List.filter_map]
      have hkept : g.nodes.filter ((fun m => own m.symbolId) ∘
          fun m => if m.symbolId == n.symbolId then n else m) =
          g.nodes.filter fun m => own m.symbolId :=
        List.filter_congr fun m _ => by
          by_cases hsame : m.symbolId = n.symbolId <;> simp [hsame]
      rw [hkept, List.map_congr_left (g := id), List.map_id]
      intro m hm
      have hne : m.symbolId ≠ n.symbolId := by
        rintro heq
        simp [heq, hown] at hm
      simp [hne]
    · simp [hpart.nodes, hown]
  edges := by rw [edges_addNode, hpart.edges]
  joins := by simpa only [edges_addNode] using hpart.joins
  named _ := hpart.named_of_mem_addNode (by simp [hown, hn])

/-- An edge has the ends of an edge that was there or of what is observed. -/
theorem joins_absorbLink (hpart : Part own p g h) (hjoins : own l.target = own l.source)
    {e : Edge} (he : e ∈ absorbLink l g.edges) : own e.target = own e.source := by
  have hrelation : e.relation ∈ (absorbLink l g.edges).map Edge.relation := List.mem_map_of_mem he
  rw [relations_absorbLink] at hrelation
  have hcases : e.relation ∈ g.edges.map Edge.relation ∨ e.relation = l.relation := by
    split at hrelation
    · exact .inl hrelation
    · simpa using hrelation
  rcases hcases with hold | hnew
  · obtain ⟨e', he', heq⟩ := List.mem_map.mp hold
    obtain ⟨hsource, htarget, -⟩ : e'.source = e.source ∧ e'.target = e.target ∧ e'.kind = e.kind := by
      simpa [Edge.relation] using heq
    rw [← hsource, ← htarget]
    exact hpart.joins e' he'
  · obtain ⟨hsource, htarget, -⟩ : e.source = l.source ∧ e.target = l.target ∧ e.kind = l.kind := by
      simpa [Edge.relation, Link.relation] using hnew
    rw [hsource, htarget, hjoins]

theorem filter_absorbLink (hsource : own l.source = true) (edges : List Edge) :
    (absorbLink l edges).filter (own ·.source) = absorbLink l (edges.filter (own ·.source)) := by
  induction edges with
  | nil => simp [absorbLink, Edge.ofLink, hsource]
  | cons e rest ih =>
      by_cases hfits : l.fits e
      · have hsame : e.source = l.source := congrArg Prod.fst (Link.fits_iff.mp hfits)
        have habsorbed : (e.absorb l).source = l.source := hsame
        simp [absorbLink, hfits, hsame, habsorbed, hsource]
      · have hpast : ∀ later, absorbLink l (e :: later) = e :: absorbLink l later :=
          fun _ => if_neg hfits
        by_cases he : own e.source = true
        · simp [hpast, he, ih]
        · simp [hpast, he, ih]

theorem filter_absorbLink_other (hsource : own l.source = false) (edges : List Edge) :
    (absorbLink l edges).filter (own ·.source) = edges.filter (own ·.source) := by
  induction edges with
  | nil => simp [absorbLink, Edge.ofLink, hsource]
  | cons e rest ih =>
      unfold absorbLink
      by_cases hfits : l.fits e
      · have hsame : e.source = l.source := congrArg Prod.fst (Link.fits_iff.mp hfits)
        have habsorbed : (e.absorb l).source = l.source := hsame
        simp [hfits, hsame, habsorbed, hsource]
      · simp [hfits, List.filter_cons, ih]

/-- An observation of the project is recorded in the part as it is in the whole graph. -/
theorem addLink (hpart : Part own p g h) (hsource : own l.source = true)
    (htarget : own l.target = true) : Part own p (g.addLink l).1 (h.addLink l).1 := by
  unfold SymbolGraph.addLink
  rw [hpart.hasNode hsource, hpart.hasNode htarget]
  split
  · exact hpart
  · split
    · exact ⟨hpart.nodes, by rw [hpart.edges, filter_absorbLink hsource],
        fun e => hpart.joins_absorbLink (htarget.trans hsource.symm), hpart.named⟩
    · exact ⟨hpart.nodes, hpart.edges, hpart.joins, hpart.named⟩

theorem addLink_other (hpart : Part own p g h) (hsource : own l.source = false)
    (htarget : own l.target = false) : Part own p (g.addLink l).1 h := by
  unfold SymbolGraph.addLink
  split
  · exact hpart
  · split
    · exact ⟨hpart.nodes, by rw [hpart.edges, filter_absorbLink_other hsource],
        fun e => hpart.joins_absorbLink (htarget.trans hsource.symm), hpart.named⟩
    · exact ⟨hpart.nodes, hpart.edges, hpart.joins, hpart.named⟩

theorem addBranches (hpart : Part own p g h) (branches : List (String × Int)) :
    Part own p (addBranches g branches) (addBranches h branches) where
  nodes := by
    unfold Build.addBranches
    rw [hpart.nodes, List.filter_map]
    rfl
  edges := hpart.edges
  joins := hpart.joins
  named n hn := by
    obtain ⟨m, hm, rfl⟩ := List.mem_map.mp hn
    exact hpart.named m hm

/-- Lines of other projects change no node of the part. -/
theorem addBranches_other (hpart : Part own p g h) {branches : List (String × Int)}
    (hother : ∀ b ∈ branches, own b.1 = false) : Part own p (Build.addBranches g branches) h where
  nodes := by
    unfold Build.addBranches
    rw [hpart.nodes, List.filter_map]
    symm
    refine (List.map_congr_left (g := id) fun n hn => ?_).trans (List.map_id _)
    have hnone : branches.countP (·.1 == n.symbolId) = 0 := by
      refine List.countP_eq_zero.mpr fun b hb hsame => ?_
      have hown : own n.symbolId = true := (List.mem_filter.mp hn).2
      rw [← beq_iff_eq.mp hsame, hother b hb] at hown
      cases hown
    simp [hnone]
  edges := hpart.edges
  joins := hpart.joins
  named n hn := by
    obtain ⟨m, hm, rfl⟩ := List.mem_map.mp hn
    exact hpart.named m hm

theorem hasInheritance (hpart : Part own p g h) {source target : String}
    (hsource : own source = true) :
    Build.hasInheritance h source target = Build.hasInheritance g source target := by
  unfold Build.hasInheritance
  rw [hpart.edges, List.any_filter]
  refine congrArg g.edges.any (funext fun e => ?_)
  by_cases hsame : e.source = source
  · simp [hsame, hsource]
  · simp [hsame]

end Part

/-! ## Passes -/

/-- A step after which the part is a part again. If the step is of the project itself, it is taken in
the part as well. -/
def Parts (own : String → Bool) (p : String) (mine : Bool) (step : SymbolGraph → SymbolGraph) : Prop :=
  ∀ g h, Part own p g h → Part own p (step g) (bif mine then step h else h)

namespace Parts

variable {mine : Bool} {step step' : SymbolGraph → SymbolGraph}

theorem same : Parts own p mine fun g => g := by
  intro g h hpart
  cases mine <;> exact hpart

theorem comp (hstep' : Parts own p mine step') (hstep : Parts own p mine step) :
    Parts own p mine (step' ∘ step) := by
  intro g h hpart
  have hthen := hstep' _ _ (hstep g h hpart)
  cases mine <;> exact hthen

theorem foldl {α : Type} {step : SymbolGraph → α → SymbolGraph} {xs : List α}
    (hsteps : ∀ x ∈ xs, Parts own p mine (step · x)) : Parts own p mine (xs.foldl step) := by
  induction xs with
  | nil => exact same
  | cons x rest ih =>
      exact (ih fun y hy => hsteps y (List.mem_cons_of_mem x hy)).comp (hsteps x (by simp))

/-- Over files of all projects the part takes the steps of the files of its own. -/
theorem foldl_ofProject {step : SymbolGraph → FileRecord → SymbolGraph}
    (hsteps : ∀ f ∈ added, Parts own p (f.projectId == p) (step · f)) (hpart : Part own p g h) :
    Part own p (added.foldl step g) ((ofProject added p).foldl step h) := by
  induction added generalizing g h with
  | nil => exact hpart
  | cons f rest ih =>
      have hfirst := hsteps f (by simp) g h hpart
      have hrest := fun k hk => hsteps k (List.mem_cons_of_mem f hk)
      by_cases hmine : (f.projectId == p) = true
      · have hcons : ofProject (f :: rest) p = f :: ofProject rest p := List.filter_cons_of_pos hmine
        rw [hcons]
        rw [hmine] at hfirst
        exact ih hrest hfirst
      · have hcons : ofProject (f :: rest) p = ofProject rest p := List.filter_cons_of_neg hmine
        rw [hcons]
        rw [Bool.eq_false_iff.mpr hmine] at hfirst
        exact ih hrest hfirst

theorem addNode {n : Node} (hown : own n.symbolId = mine) (hn : (n.projectId == p) = mine) :
    Parts own p mine (·.addNode n) := by
  intro g h hpart
  cases mine with
  | true => exact hpart.addNode hown (by simpa using hn)
  | false => exact hpart.addNode_other hown (by simpa using hn)

theorem addLink (hsource : own l.source = mine) (htarget : own l.target = mine) :
    Parts own p mine fun g => (g.addLink l).1 := by
  intro g h hpart
  cases mine with
  | true => exact hpart.addLink hsource htarget
  | false => exact hpart.addLink_other hsource htarget

theorem addLinks {links : List Link}
    (hlinks : ∀ l ∈ links, own l.source = mine ∧ own l.target = mine) :
    Parts own p mine (Build.addLinks · links) :=
  foldl fun l hl => addLink (hlinks l hl).1 (hlinks l hl).2

theorem addBranches {branches : List (String × Int)} (hbranches : ∀ b ∈ branches, own b.1 = mine) :
    Parts own p mine (Build.addBranches · branches) := by
  intro g h hpart
  cases mine with
  | true => exact hpart.addBranches branches
  | false => exact hpart.addBranches_other hbranches

theorem countDangling (references : List Reference) :
    Parts own p mine (Build.countDangling · references) := by
  intro g h hpart
  cases mine <;> exact ⟨hpart.nodes, hpart.edges, hpart.joins, hpart.named⟩

theorem addMentionedBases (hs : own s.id = mine) (hf : ∀ t ∈ f.symbols, own t.id = mine) :
    Parts own p mine (Build.addMentionedBases f s) := by
  unfold Build.addMentionedBases
  split
  · exact same
  · refine foldl fun t ht g h hpart => ?_
    have hlink := addLink (p := p) (l := inheritanceLink f s t) hs (hf t ht) g h hpart
    cases mine with
    | false =>
        dsimp only
        split
        · exact hpart
        · split
          · exact hlink
          · exact hpart
    | true =>
        simp only [hpart.hasInheritance hs, cond_true]
        split
        · exact hpart
        · split
          · exact hlink
          · exact hpart

end Parts

/-! ## The passes over a file -/

theorem Apart.parts_addLinks (hapart : Apart files) {q : String} {links : List Link}
    (hfinds : ∀ l ∈ links, Finds (ofProject files q) l) :
    Parts (owns files p) p (q == p) (addLinks · links) :=
  Parts.addLinks fun l hl => hapart.owns_of_finds (hfinds l hl)

theorem Apart.parts_addDeclaration (hapart : Apart files) (hf : f ∈ files) (hs : s ∈ f.symbols) :
    Parts (owns files p) p (f.projectId == p) (addDeclaration files f · s) := by
  have hmem : f ∈ ofProject files f.projectId := mem_ofProject.mpr ⟨hf, rfl⟩
  have hsymbol := isSymbol_of_mem hmem hs
  rw [← hapart.addDeclaration_eq hf]
  have hbases := hapart.parts_addLinks (p := p) fun l =>
    finds_namedBases (f := f) (l := l) hsymbol
  have huses := hapart.parts_addLinks (p := p) fun l =>
    finds_typeUses (f := f) (l := l) hsymbol
  have hmentions : Parts (owns files p) p (f.projectId == p) (addMentionedBases f s) :=
    Parts.addMentionedBases (hapart.owns_eq hf hs) fun t ht => hapart.owns_eq hf ht
  have howner := hapart.parts_addLinks (p := p) fun l hl =>
    finds_containment? (f := f) (s := s) (l := l) hsymbol (Option.mem_toList.mp hl)
  unfold addDeclaration
  cases s.kind
  case classDecl => exact howner.comp (hmentions.comp hbases)
  case interface => exact howner.comp hmentions
  case struct => exact howner.comp hbases
  case var => exact howner.comp huses
  case field => exact howner.comp huses
  case const => exact howner.comp huses
  all_goals exact howner

theorem source_of_mem_branches {b : String × Int} (hb : b ∈ branches f) :
    ∃ s ∈ f.symbols, s.id = b.1 := by
  obtain ⟨u, -, hbranch⟩ := List.mem_filterMap.mp (List.mem_eraseDups.mp hb)
  unfold branch? at hbranch
  obtain ⟨source, hsource, hline⟩ := Option.bind_eq_some_iff.mp hbranch
  unfold sourceOf? at hsource
  split at hsource
  · cases hsource
  · refine ⟨source, mem_of_enclosing? hsource, ?_⟩
    split at hline
    · rw [← Option.some.inj hline]
    · cases hline

theorem Apart.parts_addFile (hapart : Apart files) (hf : f ∈ files) :
    Parts (owns files p) p (f.projectId == p) (addFile files · f) := by
  have hmem : f ∈ ofProject files f.projectId := mem_ofProject.mpr ⟨hf, rfl⟩
  have husages : Parts (owns files p) p (f.projectId == p)
      (addLinks · (f.usages.filterMap (ofUsage? files f))) := by
    refine hapart.parts_addLinks fun l hl => ?_
    rw [← hapart.ofUsage?_eq hf] at hl
    obtain ⟨u, -, hu⟩ := List.mem_filterMap.mp hl
    exact finds_ofUsage? hmem hu
  have hbranches : Parts (owns files p) p (f.projectId == p) (addBranches · (branches f)) := by
    refine Parts.addBranches fun b hb => ?_
    obtain ⟨s, hs, hid⟩ := source_of_mem_branches hb
    rw [← hid, hapart.owns_eq hf hs]
  have hdeclarations : Parts (owns files p) p (f.projectId == p)
      (f.symbols.foldl (addDeclaration files f)) :=
    Parts.foldl fun s hs => hapart.parts_addDeclaration hf hs
  exact (Parts.countDangling f.references).comp (hdeclarations.comp (hbranches.comp husages))

theorem Apart.part_addNodes (hapart : Apart files) :
    Part (owns files p) p (addNodes files .empty) (addNodes (ofProject files p) .empty) := by
  refine Parts.foldl_ofProject (fun f hf => ?_) Part.empty
  exact Parts.foldl fun s hs => Parts.addNode (hapart.owns_eq hf hs) rfl

/-- The graph before the figures are computed, with the part that the files of a project make. -/
theorem Apart.part_addFiles (hapart : Apart files) :
    Part (owns files p) p (files.foldl (addFile files) (addNodes files .empty))
      ((ofProject files p).foldl (addFile (ofProject files p))
        (addNodes (ofProject files p) .empty)) := by
  have hsame : (ofProject files p).foldl (addFile (ofProject files p))
      (addNodes (ofProject files p) .empty) =
      (ofProject files p).foldl (addFile files) (addNodes (ofProject files p) .empty) :=
    List.foldl_ext _ _ _ fun g f hf => by
      obtain ⟨hmem, rfl⟩ := mem_ofProject.mp hf
      exact hapart.addFile_eq hmem
  rw [hsame]
  exact Parts.foldl_ofProject (fun f hf => hapart.parts_addFile hf) hapart.part_addNodes

/-! ## Figures -/

/-- An edge that ends in the project begins there, so the part has all edges that are counted. -/
theorem Part.couplingOf_eq (hpart : Part own p g h) (hid : own id = true) :
    h.couplingOf id = g.couplingOf id := by
  unfold couplingOf
  rw [hpart.edges, List.countP_filter, List.countP_filter]
  have htargets : g.edges.countP (fun e => (e.target == id) && own e.source) =
      g.edges.countP (·.target == id) := by
    refine List.countP_congr fun e he => ?_
    have hjoin := hpart.joins e he
    by_cases htarget : e.target = id
    · rw [htarget, hid] at hjoin
      simp [htarget, ← hjoin]
    · simp [htarget]
  have hsources : g.edges.countP (fun e => (e.source == id) && own e.source) =
      g.edges.countP (·.source == id) := by
    refine List.countP_congr fun e _ => ?_
    by_cases hsource : e.source = id
    · simp [hsource, hid]
    · simp [hsource]
  rw [htargets, hsources]

theorem Part.nodes_computeFigures (hpart : Part own p g h) :
    (g.computeFigures.nodes.filter (·.projectId == p)).map Node.besidesCentrality =
      h.computeFigures.nodes.map Node.besidesCentrality := by
  have hnamed : g.nodes.filter (·.projectId == p) = g.nodes.filter fun n => own n.symbolId :=
    List.filter_congr fun n hn => (hpart.named n hn).symm
  rw [SymbolGraph.nodes_computeFigures, SymbolGraph.nodes_computeFigures, List.filter_map, hpart.nodes, List.map_map,
    List.map_map]
  refine (congrArg _ hnamed).trans (List.map_congr_left fun n hn => ?_)
  have hown : own n.symbolId = true := (List.mem_filter.mp hn).2
  simp [Node.besidesCentrality, hpart.couplingOf_eq hown]

end Build

namespace SymbolGraph

open Build

theorem dependencies_eq_of_part {own : String → Bool} {p : String} {g h : SymbolGraph}
    (hpart : Part own p g h) {id : String} (hid : own id = true) :
    g.dependencies id = h.dependencies id := by
  unfold dependencies
  rw [hpart.edges, List.filter_filter]
  refine List.filter_congr fun e _ => ?_
  by_cases hsource : e.source = id
  · simp [hsource, hid]
  · simp [hsource]

theorem Part.named_computeFigures {own : String → Bool} {p : String} {g h : SymbolGraph}
    (hpart : Part own p g h) {n : Node} (hn : n ∈ g.computeFigures.nodes) :
    own n.symbolId = (n.projectId == p) := by
  obtain ⟨m, hm, rfl⟩ := List.mem_map.mp hn
  exact hpart.named m hm

/-- Projects do not see each other in a graph. If files with one identifier are of one project, and
symbols with one identifier too, the nodes of a project are those of the graph of its files alone, in
the same order and with the same figures except for their centrality. The edges from a node are the
same as well, with all that they tell and in the same order, and an edge joins nodes of one project. -/
theorem projects_apart (files : List FileRecord) (hapart : Apart files) :
    (∀ p, ((build files).nodes.filter (·.projectId == p)).map Node.besidesCentrality =
        (build (ofProject files p)).nodes.map Node.besidesCentrality ∧
      ∀ n ∈ (build files).nodes, n.projectId = p →
        (build files).dependencies n.symbolId =
          (build (ofProject files p)).dependencies n.symbolId) ∧
    ∀ e ∈ (build files).edges, ∃ n ∈ (build files).nodes, ∃ m ∈ (build files).nodes,
      n.symbolId = e.source ∧ m.symbolId = e.target ∧ n.projectId = m.projectId := by
  have hpart (p : String) := hapart.part_addFiles (p := p)
  have hnamed (p : String) (n : Node) (hn : n ∈ (build files).nodes) :
      owns files p n.symbolId = (n.projectId == p) := Part.named_computeFigures (hpart p) hn
  refine ⟨fun p => ⟨(hpart p).nodes_computeFigures, fun n hn hproject => ?_⟩, fun e he => ?_⟩
  · have hown : owns files p n.symbolId = true := by rw [hnamed p n hn, hproject, beq_self_eq_true]
    exact dependencies_eq_of_part (hpart p) hown
  · obtain ⟨links, hrecords, -⟩ := (grown_build files).records
    obtain ⟨hsource, htarget⟩ := hrecords.wellFormed.ends e he
    obtain ⟨n, hn, hfrom⟩ := List.mem_map.mp (hasNode_iff.mp hsource)
    obtain ⟨m, hm, hto⟩ := List.mem_map.mp (hasNode_iff.mp htarget)
    refine ⟨n, hn, m, hm, hfrom, hto, ?_⟩
    have hjoin := (hpart n.projectId).joins e he
    rw [← hfrom, ← hto, hnamed _ n hn, hnamed _ m hm, beq_self_eq_true, beq_iff_eq] at hjoin
    exact hjoin.symm

/-- A file of a project in which one function calls another. -/
def callingFile (project : String) : FileRecord where
  fileId := project ++ "/main.c"
  projectId := project
  symbols :=
    [⟨project ++ "/run", "", "run", .function, ⟨1, 1⟩, ⟨3, 2⟩, "void run()", "", "", []⟩,
      ⟨project ++ "/step", "", "step", .function, ⟨5, 1⟩, ⟨6, 2⟩, "void step()", "", "", []⟩]
  references := []
  usages := [⟨"step", ⟨"", ⟨2, 3⟩, ⟨2, 9⟩⟩, .call, "if (ready) step();"⟩]

/-- Two projects that use the same names: each call is one of a function of its own project. -/
theorem projects_apart_of_same_names :
    Apart [callingFile "here", callingFile "there"] ∧
      (build [callingFile "here", callingFile "there"]).edges.map (fun e => (e.source, e.target)) =
        [("here/run", "here/step"), ("there/run", "there/step")] ∧
      ((build [callingFile "here", callingFile "there"]).nodes.filter
          (·.projectId == "there")).map Node.besidesCentrality =
        (build [callingFile "there"]).nodes.map Node.besidesCentrality := by
  have hapart : Apart [callingFile "here", callingFile "there"] := ⟨by decide, by decide⟩
  have hthere : ofProject [callingFile "here", callingFile "there"] "there" =
      [callingFile "there"] := by decide
  refine ⟨hapart, by decide +kernel, ?_⟩
  rw [((projects_apart _ hapart).1 "there").1, hthere]

end SymbolGraph

end CodeAtlas
