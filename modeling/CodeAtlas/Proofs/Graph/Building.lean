import CodeAtlas.Graph.Build
import CodeAtlas.Proofs.Graph.WellFormed

/-!
# The graph of some files

Every pass over a file finds its observations between symbols of the files, and every symbol is a node
before the first pass begins. So nothing that is found is dropped: what a built graph counts as dropped
are the references to symbols that no file has.
-/

namespace CodeAtlas

namespace Build

open SymbolGraph

/-- Whether a file has a symbol with an identifier. -/
def isSymbol (files : List FileRecord) (id : String) : Bool :=
  files.any fun f => f.symbols.any (·.id == id)

/-- The number of references to symbols that no file has. -/
def danglingReferences (files : List FileRecord) : Nat :=
  (files.flatMap (·.references)).countP fun r => !isSymbol files r.symbolId

/-- An observation of a pass: between symbols of the files, at a place, and of one call. -/
structure Finds (files : List FileRecord) (l : Link) : Prop where
  source : isSymbol files l.source = true
  target : isSymbol files l.target = true
  place : l.location.isSome = true
  count : l.context.callCount = 0

/-- A graph under construction: its nodes are the symbols of the files, and what it has recorded was
found by the passes. -/
structure Grown (files : List FileRecord) (dropped : Nat) (g : SymbolGraph) : Prop where
  records : ∃ links, g.Records links ∧ ∀ l ∈ links, Finds files l
  nodes : ∀ id, g.hasNode id = isSymbol files id
  dropped : g.dropped = dropped

variable {files : List FileRecord} {f : FileRecord} {g : SymbolGraph} {s t : Symbol} {n : Nat}
  {name id : String} {rank : SymbolKind → Nat}

theorem isSymbol_iff : isSymbol files id = true ↔ ∃ f ∈ files, ∃ s ∈ f.symbols, s.id = id := by
  simp [isSymbol]

theorem isSymbol_of_mem (hf : f ∈ files) (hs : s ∈ f.symbols) : isSymbol files s.id = true :=
  isSymbol_iff.mpr ⟨f, hf, s, hs, rfl⟩

/-! ## What names mean are symbols of the files -/

/-- A choice that each element of a list may replace by itself is one of them in the end. -/
theorem mem_of_foldl_choice {σ : Type} {step : σ → Symbol → σ} (choice : σ → Option Symbol)
    {start : σ} {symbols : List Symbol}
    (hstep : ∀ state c, choice (step state c) = choice state ∨ choice (step state c) = some c)
    (hstart : choice start = none) (h : choice (symbols.foldl step start) = some s) :
    s ∈ symbols := by
  have hchosen : choice (symbols.foldl step start) = none ∨
      ∃ c ∈ symbols, choice (symbols.foldl step start) = some c :=
    List.foldlRecOn symbols step (motive := fun state => choice state = none ∨
        ∃ c ∈ symbols, choice state = some c) (.inl hstart) fun state ih c hc => by
      rcases hstep state c with hsame | hnew
      · rwa [hsame]
      · exact .inr ⟨c, hc, hnew⟩
  obtain hnone | ⟨c, hc, heq⟩ := hchosen
  · simp [hnone] at h
  · obtain rfl := Option.some.inj (heq.symm.trans h)
    exact hc

theorem mem_of_best? {candidates : List Symbol} (h : best? rank candidates = some s) :
    s ∈ candidates := by
  refine mem_of_foldl_choice Prod.fst (fun state c => ?_) rfl h
  dsimp only
  split
  · exact .inr rfl
  · exact .inl rfl

theorem isSymbol_of_resolve? (h : resolve? files f name rank = some s) :
    isSymbol files s.id = true := by
  rw [resolve?, Option.orElse_eq_orElse, Option.orElse_eq_or, Option.or_eq_some_iff] at h
  rcases h with h | ⟨-, h⟩
  all_goals
    obtain ⟨owner, howner, hs⟩ := List.mem_flatMap.mp (List.mem_of_mem_filter (mem_of_best? h))
    exact isSymbol_of_mem (List.mem_of_mem_filter howner) hs

theorem mem_of_enclosing? {symbols : List Symbol} {place : Position} {callableOnly : Bool}
    (h : enclosing? symbols place callableOnly = some s) : s ∈ symbols := by
  refine mem_of_foldl_choice id (fun state c => ?_) rfl h
  dsimp only [id]
  split
  · split
    · exact .inr rfl
    · split
      · exact .inr rfl
      · exact .inl rfl
  · exact .inl rfl

theorem isSymbol_of_typeNamed? (h : typeNamed? files f s name = some t) :
    isSymbol files t.id = true := by
  obtain ⟨owner, howner, ht⟩ := List.mem_flatMap.mp (List.mem_of_find?_eq_some h)
  exact isSymbol_of_mem (List.mem_of_mem_filter howner) ht

/-! ## What the passes find -/

theorem finds_ofUsage? {u : Usage} {l : Link} (hf : f ∈ files) (h : ofUsage? files f u = some l) :
    Finds files l := by
  unfold ofUsage? at h
  obtain ⟨source, hsource, h⟩ := Option.bind_eq_some_iff.mp h
  obtain ⟨⟨kind, access, target⟩, htarget, h⟩ := Option.bind_eq_some_iff.mp h
  obtain rfl := Option.some.inj h
  refine ⟨?_, ?_, rfl, rfl⟩
  · unfold sourceOf? at hsource
    split at hsource
    · cases hsource
    · exact isSymbol_of_mem hf (mem_of_enclosing? hsource)
  · unfold usageLink? at htarget
    split at htarget
    case h_4 => cases htarget
    all_goals
      obtain ⟨resolved, hresolved, heq⟩ := Option.bind_eq_some_iff.mp htarget
      obtain ⟨-, -, rfl⟩ := by simpa using heq
      exact isSymbol_of_resolve? hresolved

theorem finds_inheritanceLink (hs : isSymbol files s.id = true) (ht : isSymbol files t.id = true) :
    Finds files (inheritanceLink f s t) :=
  ⟨hs, ht, rfl, rfl⟩

theorem finds_namedBases {l : Link} (hs : isSymbol files s.id = true)
    (h : l ∈ namedBases files f s) : Finds files l := by
  obtain ⟨target, htarget, rfl⟩ := List.mem_map.mp h
  obtain ⟨name, -, hnamed⟩ := List.mem_filterMap.mp htarget
  exact finds_inheritanceLink hs (isSymbol_of_typeNamed? hnamed)

theorem finds_typeUses {l : Link} (hs : isSymbol files s.id = true)
    (h : l ∈ typeUses files f s) : Finds files l := by
  obtain ⟨target, htarget, rfl⟩ := List.mem_map.mp h
  obtain ⟨name, -, hresolved⟩ := List.mem_filterMap.mp htarget
  exact ⟨hs, isSymbol_of_resolve? hresolved, rfl, rfl⟩

theorem finds_containment? {l : Link} (hs : isSymbol files s.id = true)
    (h : containment? files f s = some l) : Finds files l := by
  unfold containment? at h
  split at h
  · cases h
  · obtain ⟨owner, howner, rfl⟩ := Option.map_eq_some_iff.mp h
    exact ⟨isSymbol_of_typeNamed? howner, hs, rfl, rfl⟩

/-! ## What the passes keep -/

theorem Grown.of_same (h : Grown files n g) (g' : SymbolGraph)
    (hnodes : g'.nodes.map (·.symbolId) = g.nodes.map (·.symbolId)) (hedges : g'.edges = g.edges) :
    Grown files g'.dropped g' where
  records := by
    obtain ⟨links, hrecords, hfinds⟩ := h.records
    exact ⟨links, hrecords.of_same g' hnodes hedges, hfinds⟩
  nodes id := by
    rw [← h.nodes id, Bool.eq_iff_iff, hasNode_iff, hasNode_iff, hnodes]
  dropped := rfl

/-- What was found is recorded, unless it relates a symbol to itself; it is never dropped. -/
theorem Grown.addLink {l : Link} (h : Grown files n g) (hl : Finds files l) :
    Grown files n (g.addLink l).1 := by
  obtain ⟨links, hrecords, hfinds⟩ := h.records
  rcases addLink_cases g l with ⟨hne, hsource, htarget, heq⟩ | ⟨-, heq⟩ | ⟨hmissing, -⟩
  · rw [heq]
    refine ⟨⟨links ++ [l], hrecords.record hne hsource htarget, fun k hk => ?_⟩, h.nodes, h.dropped⟩
    rcases List.mem_append.mp hk with hk | hk
    · exact hfinds k hk
    · exact List.mem_singleton.mp hk ▸ hl
  · rwa [heq]
  · rw [h.nodes, h.nodes, hl.source, hl.target] at hmissing
    cases hmissing

theorem Grown.addLinks {links : List Link} (h : Grown files n g)
    (hlinks : ∀ l ∈ links, Finds files l) : Grown files n (addLinks g links) :=
  List.foldlRecOn links _ h fun _ hg l hl => hg.addLink (hlinks l hl)

theorem Grown.addMentionedBases (h : Grown files n g) (hf : f ∈ files)
    (hs : isSymbol files s.id = true) : Grown files n (addMentionedBases f s g) := by
  unfold Build.addMentionedBases
  split
  · exact h
  · refine List.foldlRecOn f.symbols _ h fun g' hg' t ht => ?_
    split
    · exact hg'
    · split
      · exact hg'.addLink (finds_inheritanceLink hs (isSymbol_of_mem hf ht))
      · exact hg'

theorem Grown.addDeclaration (h : Grown files n g) (hf : f ∈ files) (hs : s ∈ f.symbols) :
    Grown files n (addDeclaration files f g s) := by
  have hsymbol := isSymbol_of_mem hf hs
  unfold Build.addDeclaration
  refine Grown.addLinks ?_ fun l hl => finds_containment? hsymbol (Option.mem_toList.mp hl)
  have hbases : Grown files n (Build.addLinks g (namedBases files f s)) :=
    h.addLinks fun _ => finds_namedBases hsymbol
  have huses : Grown files n (Build.addLinks g (typeUses files f s)) :=
    h.addLinks fun _ => finds_typeUses hsymbol
  split
  · rename_i hclass
    rw [hclass]
    exact hbases.addMentionedBases hf hsymbol
  · rename_i hinterface
    rw [hinterface]
    exact h.addMentionedBases hf hsymbol
  · split
    · exact hbases
    · exact hbases
    · exact huses
    · exact huses
    · exact huses
    · exact h

theorem Grown.addDeclarations (h : Grown files n g) (hf : f ∈ files) :
    Grown files n (f.symbols.foldl (Build.addDeclaration files f) g) :=
  List.foldlRecOn f.symbols _ h fun _ hg _ hs => hg.addDeclaration hf hs

theorem ids_addBranches (g : SymbolGraph) (branches : List (String × Int)) :
    (addBranches g branches).nodes.map (·.symbolId) = g.nodes.map (·.symbolId) := by
  simp [addBranches, Function.comp_def]

/-- A file adds to what is dropped its references to symbols that no file has. -/
theorem Grown.addFile (h : Grown files n g) (hf : f ∈ files) :
    Grown files (n + f.references.countP fun r => !isSymbol files r.symbolId) (addFile files g f) := by
  have hfinds : ∀ l ∈ f.usages.filterMap (ofUsage? files f), Finds files l := fun l hl => by
    obtain ⟨u, -, hu⟩ := List.mem_filterMap.mp hl
    exact finds_ofUsage? hf hu
  have hlinks := h.addLinks hfinds
  have hbranches := hlinks.of_same _ (ids_addBranches _ (branches f)) rfl
  have hdeclared := hbranches.addDeclarations hf
  have hcounted := hdeclared.of_same (countDangling _ f.references) rfl rfl
  have hdropped := hdeclared.dropped.trans hlinks.dropped
  unfold Build.addFile
  refine ⟨hcounted.records, hcounted.nodes, ?_⟩
  simp only [countDangling, hdropped, hdeclared.nodes]

theorem Grown.addFiles {added : List FileRecord} (h : Grown files n g)
    (hadded : ∀ f ∈ added, f ∈ files) :
    Grown files (n + (added.flatMap (·.references)).countP fun r => !isSymbol files r.symbolId)
      (added.foldl (Build.addFile files) g) := by
  induction added generalizing g n with
  | nil => simpa using h
  | cons f rest ih =>
      rw [List.foldl_cons, List.flatMap_cons, List.countP_append, ← Nat.add_assoc]
      exact ih (h.addFile (hadded f (by simp))) fun k hk => hadded k (List.mem_cons_of_mem f hk)

theorem Grown.computeFigures (h : Grown files n g) : Grown files n g.computeFigures := by
  have hsame := h.of_same g.computeFigures
    (by simp [SymbolGraph.computeFigures, Function.comp_def]) rfl
  exact ⟨hsame.records, hsame.nodes, h.dropped⟩

/-! ## Nodes -/

theorem addNodes_eq_foldl (files : List FileRecord) (g : SymbolGraph) :
    addNodes files g = (files.flatMap fun f => f.symbols.map f.nodeOf).foldl addNode g := by
  simp [addNodes, List.foldl_flatMap, List.foldl_map]

theorem hasNode_foldl_addNode {nodes : List Node} :
    (nodes.foldl addNode g).hasNode id = true ↔
      g.hasNode id = true ∨ id ∈ nodes.map (·.symbolId) := by
  induction nodes generalizing g with
  | nil => simp
  | cons m rest ih =>
      rw [List.foldl_cons, ih, hasNode_addNode, List.map_cons, List.mem_cons, or_assoc]

theorem dropped_addNode (g : SymbolGraph) (m : Node) : (g.addNode m).dropped = g.dropped := by
  unfold addNode
  split <;> rfl

theorem records_addNodes (files : List FileRecord) : (addNodes files .empty).Records [] := by
  rw [addNodes_eq_foldl]
  exact List.foldlRecOn (motive := fun g => g.Records []) _ addNode records_empty
    fun _ h m _ => h.addNode m

theorem grown_addNodes (files : List FileRecord) : Grown files 0 (addNodes files .empty) := by
  refine ⟨⟨[], records_addNodes files, by simp⟩, fun id => ?_, ?_⟩
  · have hempty : SymbolGraph.empty.hasNode id = false := rfl
    rw [addNodes_eq_foldl, Bool.eq_iff_iff, hasNode_foldl_addNode, isSymbol_iff, hempty]
    simp [List.map_flatMap, Function.comp_def, FileRecord.nodeOf]
  · have hnone : SymbolGraph.empty.dropped = 0 := rfl
    rw [addNodes_eq_foldl]
    exact List.foldlRecOn (motive := fun g => g.dropped = 0) _ addNode hnone
      fun g h m _ => (dropped_addNode g m).trans h

end Build

namespace SymbolGraph

open Build

theorem grown_build (files : List FileRecord) : Grown files (danglingReferences files) (build files) := by
  have hfiles := (grown_addNodes files).addFiles fun f hf => hf
  rw [Nat.zero_add] at hfiles
  exact hfiles.computeFigures

/-- Each observation of a built graph is one call at one place. -/
theorem calls_eq_length_places {links : List Link} (h : ∀ l ∈ links, l.location.isSome = true ∧
    l.context.callCount = 0) :
    Link.calls links = (links.flatMap (·.location.toList)).length ∧
      links.length = (links.flatMap (·.location.toList)).length := by
  induction links with
  | nil => simp [Link.calls]
  | cons l rest ih =>
      obtain ⟨hcalls, hlength⟩ := ih fun k hk => h k (List.mem_cons_of_mem l hk)
      obtain ⟨hplace, hcount⟩ := h l (by simp)
      obtain ⟨place, hplace⟩ := Option.isSome_iff_exists.mp hplace
      have hone : l.count = 1 := by simp [Link.count, hcount]
      simp only [Link.calls, List.map_cons, List.sum_cons, hone, List.flatMap_cons, hplace,
        Option.toList_some, List.length_append, List.length_cons, List.length_nil] at hcalls ⊢
      omega

/-- An edge of a built graph stands for as many calls as it has places. -/
theorem callCount_build {files : List FileRecord} {e : Edge} (he : e ∈ (build files).edges) :
    1 ≤ e.locations.length ∧
      (e.locations.length < signedLimit → e.context.callCount = e.locations.length) := by
  obtain ⟨links, hrecords, hfinds⟩ := (grown_build files).records
  have hmerges := hrecords.merges he
  have hsingle : ∀ l ∈ links.filter (·.fits e), l.location.isSome = true ∧ l.context.callCount = 0 :=
    fun l hl => ⟨(hfinds l (List.mem_of_mem_filter hl)).place,
      (hfinds l (List.mem_of_mem_filter hl)).count⟩
  obtain ⟨hcalls, hlength⟩ := calls_eq_length_places hsingle
  rw [← hmerges.places] at hcalls hlength
  refine ⟨hlength ▸ List.length_pos_iff.mpr hmerges.observed, fun hsmall => ?_⟩
  rw [hmerges.calls (by omega), hcalls]

end SymbolGraph

end CodeAtlas
