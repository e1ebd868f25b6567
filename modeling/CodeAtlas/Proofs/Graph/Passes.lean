import CodeAtlas.Proofs.Graph.Observed

/-!
# What every pass tells

A graph is built by observations, one after the other, and each of them comes from one of four places: a
usage, a base that the header of a declaration names, a type that a variable mentions, or the scope of a
member. What holds before the passes, and goes on to hold when one more such observation is taken up, holds
of the graph that is built. An edge that is there stays, so everything that the passes find has its edge in
the end.
-/

namespace CodeAtlas

/-- What one step of a run brings about and the later ones keep holds after the run. -/
theorem foldl_gains {α σ : Type} {step : σ → α → σ} {xs : List α} {x : α} (before after : σ → Prop)
    (hx : x ∈ xs) (hbefore : ∀ state, before state → ∀ y ∈ xs, before (step state y))
    (hgain : ∀ state, before state → after (step state x))
    (hafter : ∀ state, after state → ∀ y ∈ xs, after (step state y)) {start : σ} (hstart : before start) :
    after (xs.foldl step start) := by
  -- Up to its step the run keeps what the step needs, from there on what the step has brought about.
  obtain ⟨earlier, later, rfl⟩ := List.append_of_mem hx
  rw [List.foldl_append, List.foldl_cons]
  have hearlier : before (earlier.foldl step start) :=
    List.foldlRecOn earlier step hstart fun state h y hy => hbefore state h y (by simp [hy])
  exact List.foldlRecOn later step (hgain _ hearlier) fun state h y hy => hafter state h y (by simp [hy])

namespace Build

open SymbolGraph

/-- The symbols of the files, each with its file. -/
def declarations (files : List FileRecord) : List (FileRecord × Symbol) :=
  files.flatMap fun f => f.symbols.map (f, ·)

/-- The header of a type names another type as its base. -/
structure NamesBase (s t : Symbol) : Prop where
  kind : s.kind = .classDecl ∨ s.kind = .struct ∨ s.kind = .interface
  isType : t.kind.isTypeLike = true
  other : t.id ≠ s.id
  marker : hasInheritanceMarker s.header = true
  mentioned : t.name ∈ identifiers s.header

theorem namesBase_iff {s t : Symbol} : NamesBase s t ↔
    (s.kind = .classDecl ∨ s.kind = .struct ∨ s.kind = .interface) ∧ t.kind.isTypeLike = true ∧
      t.id ≠ s.id ∧ hasInheritanceMarker s.header = true ∧ t.name ∈ identifiers s.header :=
  ⟨fun h => ⟨h.kind, h.isType, h.other, h.marker, h.mentioned⟩,
    fun ⟨kind, isType, other, marker, mentioned⟩ => ⟨kind, isType, other, marker, mentioned⟩⟩

instance (s t : Symbol) : Decidable (NamesBase s t) := decidable_of_iff' _ namesBase_iff

/-- Links a type to a base that its header names, unless it is linked already. -/
def linkBase (f : FileRecord) (s : Symbol) (g : SymbolGraph) (t : Symbol) : SymbolGraph :=
  if NamesBase s t ∧ hasInheritance g s.id t.id = false then (g.addLink (inheritanceLink f s t)).1 else g

/-- The observations that the passes over the files take up. -/
inductive Told (files : List FileRecord) : Link → Prop where
  | usage {f : FileRecord} {u : Usage} {l : Link} (hf : f ∈ files) (hu : u ∈ f.usages)
      (hl : ofUsage? files f u = some l) : Told files l
  | base {f : FileRecord} {s t : Symbol} (hf : f ∈ files) (hs : s ∈ f.symbols)
      (ht : t ∈ symbolsOfFile files f.fileId) (h : NamesBase s t) : Told files (inheritanceLink f s t)
  | typeUse {f : FileRecord} {s : Symbol} {l : Link} (hf : f ∈ files) (hs : s ∈ f.symbols)
      (hdata : isData s.kind = true) (hl : l ∈ typeUses files f s) : Told files l
  | member {f : FileRecord} {s : Symbol} {l : Link} (hf : f ∈ files) (hs : s ∈ f.symbols)
      (hl : containment? files f s = some l) : Told files l

def HasSymbols (files : List FileRecord) (g : SymbolGraph) : Prop :=
  ∀ id, g.hasNode id = isSymbol files id

/-- What depends on the nodes and the edges alone, and stays when one more observation is taken up. -/
structure Kept (files : List FileRecord) (holds : SymbolGraph → Prop) : Prop where
  same : ∀ {g g' : SymbolGraph}, holds g → g'.nodes.map (·.symbolId) = g.nodes.map (·.symbolId) →
    g'.edges = g.edges → holds g'
  told : ∀ {g : SymbolGraph} {l : Link}, holds g → Told files l → holds (g.addLink l).1

variable {files : List FileRecord} {f : FileRecord} {g : SymbolGraph} {s t : Symbol} {l : Link}
  {holds : SymbolGraph → Prop}

theorem mem_symbolsOfFile {id : String} : s ∈ symbolsOfFile files id ↔
    ∃ f ∈ files, f.fileId = id ∧ s ∈ f.symbols := by
  simp [symbolsOfFile, and_assoc]

theorem mem_declarations : (f, s) ∈ declarations files ↔ f ∈ files ∧ s ∈ f.symbols := by
  simp [declarations]

/-- An identifier belongs to one symbol of one file. -/
theorem declarations_inj (hids : ((files.flatMap (·.symbols)).map (·.id)).Nodup)
    {a b : FileRecord × Symbol} (ha : a ∈ declarations files) (hb : b ∈ declarations files)
    (hid : a.2.id = b.2.id) : a = b := by
  have hmap : (declarations files).map (·.2.id) = (files.flatMap (·.symbols)).map (·.id) := by
    simp [declarations, List.map_flatMap, Function.comp_def]
  exact List.inj_on_of_nodup_map (hmap ▸ hids) ha hb hid

theorem told_of_mem_namedBases (hf : f ∈ files) (hs : s ∈ f.symbols)
    (hkind : s.kind = .classDecl ∨ s.kind = .struct) (h : l ∈ namedBases files f s) : Told files l := by
  obtain ⟨base, hbase, rfl⟩ := List.mem_map.mp h
  obtain ⟨name, hname, hnamed⟩ := List.mem_filterMap.mp hbase
  unfold Symbol.baseNames at hname
  split at hname
  · rename_i hmarker
    obtain ⟨⟨hsame, hother⟩, htype⟩ := by simpa using List.find?_some hnamed
    refine .base hf hs (List.mem_of_find?_eq_some hnamed)
      ⟨hkind.imp_right .inl, htype, hother, hmarker, ?_⟩
    rw [hsame]
    exact List.mem_of_mem_filter hname
  · cases hname

theorem addMentionedBases_eq (hkind : s.kind = .classDecl ∨ s.kind = .interface) :
    addMentionedBases f s g = f.symbols.foldl (linkBase f s) g := by
  unfold addMentionedBases
  split
  -- Without a header the pass is left out; it would link nothing, as such a header has no mark.
  · rename_i hempty
    have hnone (t : Symbol) : ¬NamesBase s t := by
      intro h
      have hmarker := h.marker
      rw [beq_iff_eq.mp hempty] at hmarker
      revert hmarker
      decide
    exact (List.foldl_fixed' (fun t => if_neg fun h => hnone t h.1) _).symm
  · refine congrArg (fun step => f.symbols.foldl step g) (funext fun g => funext fun t => ?_)
    have hnames : NamesBase s t ↔ t.kind.isTypeLike = true ∧ t.id ≠ s.id ∧
        hasInheritanceMarker s.header = true ∧ t.name ∈ identifiers s.header := by
      rw [namesBase_iff, and_iff_right (hkind.imp_right .inr)]
    by_cases hid : t.id = s.id
    · simp [linkBase, hnames, hid]
    · by_cases htype : t.kind.isTypeLike = true <;> by_cases hlinked : hasInheritance g s.id t.id = true <;>
        simp [linkBase, hnames, hid, htype, hlinked, and_comm]

namespace Kept

theorem addLinks (h : Kept files holds) {links : List Link} (hg : holds g)
    (hlinks : ∀ l ∈ links, Told files l) : holds (addLinks g links) :=
  List.foldlRecOn links _ hg fun _ hg l hl => h.told hg (hlinks l hl)

theorem linkBase (h : Kept files holds) (hg : holds g) (hf : f ∈ files) (hs : s ∈ f.symbols)
    (ht : t ∈ f.symbols) : holds (linkBase f s g t) := by
  unfold Build.linkBase
  split
  · rename_i hnew
    exact h.told hg (.base hf hs (mem_symbolsOfFile.mpr ⟨f, hf, rfl, ht⟩) hnew.1)
  · exact hg

theorem addMentionedBases (h : Kept files holds) (hg : holds g) (hf : f ∈ files) (hs : s ∈ f.symbols)
    (hkind : s.kind = .classDecl ∨ s.kind = .interface) : holds (addMentionedBases f s g) := by
  rw [addMentionedBases_eq hkind]
  exact List.foldlRecOn f.symbols _ hg fun _ hg _ ht => h.linkBase hg hf hs ht

theorem addNamedBases (h : Kept files holds) (hg : holds g) (hf : f ∈ files) (hs : s ∈ f.symbols)
    (hkind : s.kind = .classDecl ∨ s.kind = .struct) :
    holds (Build.addLinks g (namedBases files f s)) :=
  h.addLinks hg fun _ hl => told_of_mem_namedBases hf hs hkind hl

theorem addMember (h : Kept files holds) (hg : holds g) (hf : f ∈ files) (hs : s ∈ f.symbols) :
    holds (Build.addLinks g (containment? files f s).toList) :=
  h.addLinks hg fun _ hl => .member hf hs (Option.mem_toList.mp hl)

theorem addDeclaration (h : Kept files holds) (hg : holds g) (hf : f ∈ files) (hs : s ∈ f.symbols) :
    holds (addDeclaration files f g s) := by
  have hmember {g' : SymbolGraph} (hg' : holds g') :
      holds (Build.addLinks g' (containment? files f s).toList) := h.addMember hg' hf hs
  have huses (hdata : isData s.kind = true) : holds (Build.addLinks g (typeUses files f s)) :=
    h.addLinks hg fun l hl => .typeUse hf hs hdata hl
  unfold Build.addDeclaration
  cases hkind : s.kind
  case classDecl =>
    have hnamed := h.addNamedBases hg hf hs (.inl hkind)
    exact hmember (h.addMentionedBases hnamed hf hs (.inl hkind))
  case interface => exact hmember (h.addMentionedBases hg hf hs (.inr hkind))
  case struct => exact hmember (h.addNamedBases hg hf hs (.inr hkind))
  case var => exact hmember (huses (by rw [hkind]; rfl))
  case field => exact hmember (huses (by rw [hkind]; rfl))
  case const => exact hmember (huses (by rw [hkind]; rfl))
  all_goals exact hmember hg

theorem addUsages (h : Kept files holds) (hg : holds g) (hf : f ∈ files) :
    holds (addBranches (Build.addLinks g (f.usages.filterMap (ofUsage? files f))) (branches f)) := by
  refine h.same (h.addLinks hg fun l hl => ?_) (ids_addBranches _ _) rfl
  obtain ⟨u, hu, hl⟩ := List.mem_filterMap.mp hl
  exact .usage hf hu hl

theorem addFile (h : Kept files holds) (hg : holds g) (hf : f ∈ files) : holds (addFile files g f) :=
  h.same (List.foldlRecOn f.symbols _ (h.addUsages hg hf) fun _ hg _ hs => h.addDeclaration hg hf hs) rfl rfl

theorem computeFigures (h : Kept files holds) (hg : holds g) : holds g.computeFigures :=
  h.same hg (by simp [SymbolGraph.computeFigures, Function.comp_def]) rfl

end Kept

end Build

namespace SymbolGraph

open Build

variable {files : List FileRecord} {f : FileRecord} {s : Symbol} {holds : SymbolGraph → Prop}

theorem kept_build (h : Kept files holds) (hstart : holds (addNodes files .empty)) : holds (build files) :=
  h.computeFigures (List.foldlRecOn files _ hstart fun _ hg _ hf => h.addFile hg hf)

theorem kept_hasSymbols : Kept files (HasSymbols files) where
  same hg hnodes _ id := by
    rw [← hg id, Bool.eq_iff_iff, hasNode_iff, hasNode_iff, hnodes]
  told {g l} hg _ id := by
    rcases addLink_cases g l with ⟨-, -, -, heq⟩ | ⟨-, heq⟩ | ⟨-, heq⟩ <;>
      rw [heq] <;> exact hg id

/-- What one declaration brings about and the passes keep is there in the end. -/
theorem kept_build_of_declaration (h : Kept files holds) (hf : f ∈ files) (hs : s ∈ f.symbols)
    (hgain : ∀ g, HasSymbols files g → holds (addDeclaration files f g s)) : holds (build files) := by
  have hfile : ∀ g, HasSymbols files g → holds (addFile files g f) := by
    intro g hg
    have hdeclarations := foldl_gains (HasSymbols files) holds hs
      (fun _ hg _ hk => kept_hasSymbols.addDeclaration hg hf hk) hgain
      (fun _ hg _ hk => h.addDeclaration hg hf hk) (kept_hasSymbols.addUsages hg hf)
    exact h.same hdeclarations rfl rfl
  have hfiles := foldl_gains (HasSymbols files) holds hf (fun _ hg _ hk => kept_hasSymbols.addFile hg hk)
    hfile (fun _ hg _ hk => h.addFile hg hk) (grown_addNodes files).nodes
  exact h.computeFigures hfiles

/-- A built graph has recorded nothing but what the passes tell. -/
theorem told_build (files : List FileRecord) :
    ∃ links, (build files).Records links ∧ ∀ l ∈ links, Told files l := by
  have hkept : Kept files fun g => ∃ links, g.Records links ∧ ∀ l ∈ links, Told files l := by
    refine ⟨?_, ?_⟩
    · rintro g g' ⟨links, hrecords, htold⟩ hnodes hedges
      exact ⟨links, hrecords.of_same g' hnodes hedges, htold⟩
    · rintro g l ⟨links, hrecords, htold⟩ hl
      refine ⟨_, hrecords.addLink l, fun k hk => ?_⟩
      rcases List.mem_append.mp hk with hk | hk
      · exact htold k hk
      · obtain ⟨-, rfl⟩ := by simpa [recorded] using hk
        exact hl
  exact kept_build hkept ⟨[], records_addNodes files, by simp⟩

end SymbolGraph

namespace Build

open SymbolGraph

def isBaseKind (kind : EdgeKind) : Bool := kind == .inherits || kind == .implements

def baseKind (s t : Symbol) : EdgeKind :=
  if t.kind == .interface && s.kind != .interface then .implements else .inherits

/-- Whether an edge leads from one identifier to another one as to a base. -/
def isBaseEdge (a b : String) (e : Edge) : Bool :=
  e.source == a && e.target == b && isBaseKind e.kind

variable {files : List FileRecord} {f : FileRecord} {g : SymbolGraph} {s t : Symbol} {l : Link} {a b : String}

theorem hasInheritance_iff : hasInheritance g a b = true ↔ ∃ e ∈ g.edges, isBaseEdge a b e = true := by
  simp [hasInheritance, isBaseEdge, isBaseKind, List.any_eq_true]

theorem isBaseEdge_iff {e : Edge} : isBaseEdge a b e = true ↔
    ∃ kind, isBaseKind kind = true ∧ e.relation = (a, b, kind) := by
  unfold isBaseEdge Edge.relation
  constructor
  · intro h
    obtain ⟨⟨rfl, rfl⟩, hkind⟩ := by simpa using h
    exact ⟨e.kind, hkind, rfl⟩
  · rintro ⟨kind, hkind, heq⟩
    obtain ⟨rfl, rfl, rfl⟩ := by simpa using heq
    simpa using hkind

theorem hasInheritance_iff_relation : hasInheritance g a b = true ↔
    ∃ kind, isBaseKind kind = true ∧ (a, b, kind) ∈ g.edges.map Edge.relation := by
  simp only [hasInheritance_iff, isBaseEdge_iff, List.mem_map]
  constructor
  · rintro ⟨e, he, kind, hkind, hrelation⟩
    exact ⟨kind, hkind, e, he, hrelation⟩
  · rintro ⟨kind, hkind, e, he, hrelation⟩
    exact ⟨e, he, kind, hkind, hrelation⟩

theorem isBaseKind_baseKind (s t : Symbol) : isBaseKind (baseKind s t) = true := by
  unfold baseKind
  split <;> rfl

theorem relation_inheritanceLink (f : FileRecord) (s t : Symbol) :
    (inheritanceLink f s t).relation = (s.id, t.id, baseKind s t) := rfl

/-! ## What is found is recorded, and stays -/

theorem mem_relations_addLink {r : String × String × EdgeKind} (h : r ∈ g.edges.map Edge.relation)
    (l : Link) : r ∈ (g.addLink l).1.edges.map Edge.relation := by
  rcases addLink_cases g l with ⟨-, -, -, heq⟩ | ⟨-, heq⟩ | ⟨-, heq⟩
  · rw [heq, relations_absorbLink]
    split
    · exact h
    · exact List.mem_append_left _ h
  · rwa [heq]
  · rwa [heq]

theorem kept_relation (r : String × String × EdgeKind) :
    Kept files fun g => r ∈ g.edges.map Edge.relation where
  same hg _ hedges := by rwa [hedges]
  told hg _ := mem_relations_addLink hg _

theorem relation_mem_addLink (hg : HasSymbols files g) (hl : Finds files l) (hne : l.source ≠ l.target) :
    l.relation ∈ (g.addLink l).1.edges.map Edge.relation := by
  rcases addLink_cases g l with ⟨-, -, -, heq⟩ | ⟨hsame, -⟩ | ⟨hmissing, -⟩
  · rw [heq, relations_absorbLink]
    split
    · assumption
    · simp
  · exact absurd hsame hne
  · rw [hg, hg, hl.source, hl.target] at hmissing
    cases hmissing

theorem hasInheritance_addLink (h : hasInheritance g a b = true) (l : Link) :
    hasInheritance (g.addLink l).1 a b = true := by
  obtain ⟨kind, hkind, hmem⟩ := hasInheritance_iff_relation.mp h
  exact hasInheritance_iff_relation.mpr ⟨kind, hkind, mem_relations_addLink hmem l⟩

theorem kept_hasInheritance (a b : String) : Kept files fun g => hasInheritance g a b = true where
  same hg _ hedges := by
    unfold hasInheritance
    rw [hedges]
    exact hg
  told hg _ := hasInheritance_addLink hg _

theorem hasInheritance_addLink_self (hg : HasSymbols files g)
    (hl : Finds files (inheritanceLink f s t)) (hother : t.id ≠ s.id) :
    hasInheritance (g.addLink (inheritanceLink f s t)).1 s.id t.id = true :=
  hasInheritance_iff_relation.mpr
    ⟨baseKind s t, isBaseKind_baseKind s t, relation_mem_addLink hg hl hother.symm⟩

/-! ## The second pass over headers misses no base -/

theorem hasInheritance_addMentionedBases (hg : HasSymbols files g) (hf : f ∈ files) (hs : s ∈ f.symbols)
    (hkind : s.kind = .classDecl ∨ s.kind = .interface) (ht : t ∈ f.symbols) (h : NamesBase s t) :
    hasInheritance (addMentionedBases f s g) s.id t.id = true := by
  rw [addMentionedBases_eq hkind]
  refine foldl_gains (HasSymbols files) (fun g => hasInheritance g s.id t.id = true) ht
    (fun _ hg _ hk => kept_hasSymbols.linkBase hg hf hs hk) (fun g hg => ?_)
    (fun _ hg _ hk => (kept_hasInheritance _ _).linkBase hg hf hs hk) hg
  unfold linkBase
  by_cases hlinked : hasInheritance g s.id t.id = true
  · rwa [if_neg fun hnew => absurd hlinked (by simp [hnew.2])]
  · rw [if_pos ⟨h, by simpa using hlinked⟩]
    exact hasInheritance_addLink_self hg
      (finds_inheritanceLink (isSymbol_of_mem hf hs) (isSymbol_of_mem hf ht)) h.other

theorem hasInheritance_addDeclaration (hg : HasSymbols files g) (hf : f ∈ files) (hs : s ∈ f.symbols)
    (hkind : s.kind = .classDecl ∨ s.kind = .interface) (ht : t ∈ f.symbols) (h : NamesBase s t) :
    hasInheritance (addDeclaration files f g s) s.id t.id = true := by
  have hkept : Kept files fun g => hasInheritance g s.id t.id = true := kept_hasInheritance s.id t.id
  unfold addDeclaration
  rcases hkind with hkind | hkind
  -- What the first pass over a class does need not be known, for the second one takes up what it left out.
  · have hbases := kept_hasSymbols.addNamedBases hg hf hs (.inl hkind)
    have hlinked := hasInheritance_addMentionedBases hbases hf hs (.inl hkind) ht h
    rw [hkind]
    exact hkept.addMember hlinked hf hs
  · have hlinked := hasInheritance_addMentionedBases hg hf hs (.inr hkind) ht h
    rw [hkind]
    exact hkept.addMember hlinked hf hs

/-! ## What the passes find by name -/

theorem named_of_mem_namedBases (h : l ∈ namedBases files f s) :
    ∃ t, isSymbol files t.id = true ∧ t.id ≠ s.id ∧ l = inheritanceLink f s t := by
  obtain ⟨t, ht, rfl⟩ := List.mem_map.mp h
  obtain ⟨name, -, hnamed⟩ := List.mem_filterMap.mp ht
  obtain ⟨⟨-, hother⟩, -⟩ := by simpa using List.find?_some hnamed
  exact ⟨t, isSymbol_of_typeNamed? hnamed, hother, rfl⟩

theorem relation_mem_addDeclaration (hg : HasSymbols files g) (hf : f ∈ files) (hs : s ∈ f.symbols)
    (hkind : s.kind = .classDecl ∨ s.kind = .struct) (hl : l ∈ namedBases files f s) :
    l.relation ∈ (addDeclaration files f g s).edges.map Edge.relation := by
  have hkept : Kept files fun g => l.relation ∈ g.edges.map Edge.relation := kept_relation l.relation
  have htold : ∀ k ∈ namedBases files f s, Told files k := fun k hk => told_of_mem_namedBases hf hs hkind hk
  have hnamed : l.relation ∈ (addLinks g (namedBases files f s)).edges.map Edge.relation := by
    refine foldl_gains (HasSymbols files) (fun g => l.relation ∈ g.edges.map Edge.relation) hl
      (fun _ hg k hk => kept_hasSymbols.told hg (htold k hk)) (fun g hg => ?_)
      (fun _ hg k hk => hkept.told hg (htold k hk)) hg
    obtain ⟨t, -, hother, rfl⟩ := named_of_mem_namedBases hl
    exact relation_mem_addLink hg (finds_namedBases (isSymbol_of_mem hf hs) hl) hother.symm
  unfold addDeclaration
  rcases hkind with hkind | hkind
  · have hmentioned := hkept.addMentionedBases hnamed hf hs (.inl hkind)
    rw [hkind]
    exact hkept.addMember hmentioned hf hs
  · rw [hkind]
    exact hkept.addMember hnamed hf hs

theorem not_isBaseKind_of_mem_observed (hl : l ∈ observed files f) : isBaseKind l.kind = false := by
  rcases List.mem_append.mp hl with hl | hl
  · obtain ⟨u, -, hu⟩ := List.mem_filterMap.mp hl
    rcases kinds_of_ofUsage? hu with ⟨-, h | h⟩ | ⟨-, h | h⟩ | ⟨-, h⟩ <;> rw [h] <;> rfl
  · obtain ⟨s, -, hl⟩ := List.mem_flatMap.mp hl
    rcases List.mem_append.mp hl with hl | hl
    · split at hl
      · obtain ⟨t, -, rfl⟩ := List.mem_map.mp hl
        rfl
      · cases hl
    · have hmember := Option.mem_toList.mp hl
      unfold containment? at hmember
      split at hmember
      · cases hmember
      · obtain ⟨owner, -, rfl⟩ := Option.map_eq_some_iff.mp hmember
        rfl

/-- Nothing that the passes find by name is missing: there is an edge for each observation that does not
depend on others, for each base that a header names first, and for each type of the file that the header of a
class or an interface mentions. -/
structure Complete (files : List FileRecord) (g : SymbolGraph) : Prop where
  observed : ∀ f ∈ files, ∀ l ∈ observed files f, l.source ≠ l.target →
    l.relation ∈ g.edges.map Edge.relation
  named : ∀ f ∈ files, ∀ s ∈ f.symbols, s.kind = .classDecl ∨ s.kind = .struct →
    ∀ l ∈ namedBases files f s, l.relation ∈ g.edges.map Edge.relation
  mentioned : ∀ f ∈ files, ∀ s ∈ f.symbols, s.kind = .classDecl ∨ s.kind = .interface →
    ∀ t ∈ f.symbols, NamesBase s t → hasInheritance g s.id t.id = true

end Build

namespace SymbolGraph

open Build

theorem complete_build (files : List FileRecord) : Complete files (build files) where
  observed f hf l hl hne := by
    have hkind := not_isBaseKind_of_mem_observed hl
    have hbases : BesidesBases (· == l.kind) := by
      constructor <;> refine beq_false_of_ne fun heq => ?_ <;> rw [← heq] at hkind <;> cases hkind
    have hnoted : l ∈ (files.flatMap (observed files)).filter (isNoted (· == l.kind)) :=
      List.mem_filter.mpr ⟨List.mem_flatMap.mpr ⟨f, hf, hl⟩, by simp [isNoted, hne]⟩
    have hedge := (notes_build files hbases).exists_edge_iff (r := l.relation) (by simp [Link.relation])
    exact List.mem_map.mpr (hedge.mpr ⟨l, hnoted, rfl⟩)
  named f hf s hs hkind l hl := kept_build_of_declaration (kept_relation l.relation) hf hs fun _ hg =>
    relation_mem_addDeclaration hg hf hs hkind hl
  mentioned f hf s hs hkind t ht h := kept_build_of_declaration (kept_hasInheritance s.id t.id) hf hs fun _ hg =>
    hasInheritance_addDeclaration hg hf hs hkind ht h

/-- What a graph is made by keeps it in order. An observation is recorded exactly if it relates two different
nodes, and what is recorded has its edge ever after. The edges can be read off a table that merges each recorded
observation under its own source. Calls and the number of places are counted without a bound: the number that
an edge has is the number of calls of the observations that were recorded for it, as long as that fits into 64
bits. A built graph has the symbols of the files as its nodes, misses nothing that the passes find, and drops
nothing but references to symbols that no file has. -/
theorem graphs_wellFormed :
    (∀ calls : List GraphCall, (after calls).WellFormed ∧
      Tabulates (keyed (empty.ledger calls)) (after calls) ∧
      (∀ l : Link, ((after calls).addLink l).2 = true ↔ l.source ≠ l.target ∧
        (after calls).hasNode l.source = true ∧ (after calls).hasNode l.target = true) ∧
      (∀ l ∈ empty.ledger calls, l.relation ∈ (after calls).edges.map Edge.relation) ∧
      ∀ e ∈ (after calls).edges,
        let observed := (empty.ledger calls).filter (·.fits e)
        1 ≤ Link.calls observed ∧ (e.locations.length : Int) ≤ Link.calls observed ∧
          (Link.calls observed < signedLimit → e.context.callCount = Link.calls observed)) ∧
    ∀ files : List FileRecord, (build files).WellFormed ∧
      (∃ links, (∀ l ∈ links, Finds files l) ∧ Tabulates (keyed links) (build files)) ∧
      Complete files (build files) ∧
      (∀ e ∈ (build files).edges, 1 ≤ e.locations.length ∧
        (e.locations.length < signedLimit → e.context.callCount = e.locations.length)) ∧
      (∀ id, (build files).hasNode id = true ↔ ∃ f ∈ files, ∃ s ∈ f.symbols, s.id = id) ∧
      (build files).dropped = danglingReferences files := by
  refine ⟨fun calls => ⟨(records_after calls).wellFormed, (records_after calls).tabulates, addLink_snd_iff,
    fun l hl => (records_after calls).relation_mem hl, fun e he => ?_⟩, fun files => ?_⟩
  · have hmerges := (records_after calls).merges he
    exact ⟨Link.one_le_calls hmerges.observed,
      hmerges.places ▸ Link.length_places_le_calls _, hmerges.calls⟩
  · have hgrown := grown_build files
    obtain ⟨links, hrecords, hfinds⟩ := hgrown.records
    exact ⟨hrecords.wellFormed, ⟨links, hfinds, hrecords.tabulates⟩, complete_build files,
      fun e he => callCount_build he, fun id => by rw [hgrown.nodes, isSymbol_iff], hgrown.dropped⟩

end SymbolGraph

end CodeAtlas
