import CodeAtlas.Proofs.Graph.Containment
import CodeAtlas.Proofs.Graph.Passes

/-!
# Bases of classes and interfaces

Two passes link a class to its bases: the first takes the names in the header, one type for each of them,
and the second goes through all types of the file and leaves out those that are linked already. An interface
has the second pass only. Together they link exactly the types whose names stand in the header, each of them
once: what one of the passes tells is such a type, and the second pass misses none.
-/

namespace CodeAtlas

namespace Build

open SymbolGraph

variable {files : List FileRecord} {f : FileRecord} {s t : Symbol} {l : Link}

/-! ## Only bases are linked -/

theorem Told.base_of_isBaseKind (h : Told files l) (hkind : isBaseKind l.kind = true) :
    ∃ f ∈ files, ∃ s ∈ f.symbols, ∃ t ∈ symbolsOfFile files f.fileId, NamesBase s t ∧
      l.relation = (s.id, t.id, baseKind s t) := by
  cases h with
  | usage hf hu hl =>
      rcases kinds_of_ofUsage? hl with ⟨-, h | h⟩ | ⟨-, h | h⟩ | ⟨-, h⟩
      all_goals
        rw [h] at hkind
        cases hkind
  | base hf hs ht h => exact ⟨_, hf, _, hs, _, ht, h, relation_inheritanceLink _ _ _⟩
  | typeUse hf hs hdata hl =>
      obtain ⟨target, -, rfl⟩ := List.mem_map.mp hl
      cases hkind
  | member hf hs hl =>
      unfold containment? at hl
      split at hl
      · cases hl
      · obtain ⟨owner, -, rfl⟩ := Option.map_eq_some_iff.mp hl
        cases hkind

end Build

namespace SymbolGraph

open Build

variable {files : List FileRecord} {f : FileRecord} {s t : Symbol}

/-- An edge for a base leads to a type of the same file that the header names, and its kind follows from
both. -/
theorem names_of_isBaseEdge (h : Distinct files) (hf : f ∈ files) (hs : s ∈ f.symbols)
    (ht : t ∈ files.flatMap (·.symbols)) {e : Edge} (he : e ∈ (build files).edges)
    (hbase : isBaseEdge s.id t.id e = true) :
    t ∈ f.symbols ∧ NamesBase s t ∧ e.relation = (s.id, t.id, baseKind s t) := by
  obtain ⟨kind, hkind, hrelation⟩ := isBaseEdge_iff.mp hbase
  obtain ⟨links, hrecords, htold⟩ := told_build files
  obtain ⟨l, hl, hsame⟩ := hrecords.exists_link he
  rw [hrelation] at hsame
  have hlkind : l.kind = kind := congrArg (·.2.2) hsame
  obtain ⟨f', hf', s', hs', t', ht', hnames, hnamed⟩ := (htold l hl).base_of_isBaseKind (hlkind ▸ hkind)
  rw [hsame] at hnamed
  obtain ⟨hsource, htarget, rfl⟩ := by simpa using hnamed
  -- The ends of the edge tell only identifiers, and these tell the symbols and their file.
  obtain ⟨rfl, rfl⟩ := Prod.mk.inj (declarations_inj h.ofSymbols (mem_declarations.mpr ⟨hf, hs⟩)
    (mem_declarations.mpr ⟨hf', hs'⟩) hsource)
  rw [h.symbolsOfFile_eq hf] at ht'
  obtain ⟨owner, howner, ht⟩ := List.mem_flatMap.mp ht
  obtain ⟨rfl, rfl⟩ := Prod.mk.inj (declarations_inj h.ofSymbols (mem_declarations.mpr ⟨howner, ht⟩)
    (mem_declarations.mpr ⟨hf, ht'⟩) htarget)
  exact ⟨ht', hnames, hrelation⟩

theorem exists_isBaseEdge_iff (h : Distinct files) (hf : f ∈ files) (hs : s ∈ f.symbols)
    (hkind : s.kind = .classDecl ∨ s.kind = .interface) (ht : t ∈ files.flatMap (·.symbols)) (hne : t ≠ s) :
    (∃ e ∈ (build files).edges, isBaseEdge s.id t.id e = true) ↔
      t ∈ f.symbols ∧ t.kind.isTypeLike = true ∧ hasInheritanceMarker s.header = true ∧
        t.name ∈ identifiers s.header := by
  constructor
  · rintro ⟨e, he, hbase⟩
    obtain ⟨hfile, hnames, -⟩ := names_of_isBaseEdge h hf hs ht he hbase
    exact ⟨hfile, hnames.isType, hnames.marker, hnames.mentioned⟩
  · rintro ⟨hfile, htype, hmarker, hmentioned⟩
    have hother : t.id ≠ s.id := fun hid => hne (h.eq_of_id_eq hf hs hfile hid)
    have hnames : NamesBase s t := ⟨hkind.imp_right .inr, htype, hother, hmarker, hmentioned⟩
    rw [← hasInheritance_iff]
    exact kept_build_of_declaration (kept_hasInheritance s.id t.id) hf hs
      fun g hg => hasInheritance_addDeclaration hg hf hs hkind hfile hnames

/-- A relation has one edge, so that edges that all have the same relation are one edge. -/
theorem length_le_one_of_relation_eq {r : String × String × EdgeKind} {edges : List Edge}
    (honce : (edges.map Edge.relation).Nodup) (hall : ∀ e ∈ edges, e.relation = r) : edges.length ≤ 1 := by
  have hsame : edges.map Edge.relation = List.replicate edges.length r :=
    List.eq_replicate_iff.mpr ⟨List.length_map _, by simpa using hall⟩
  rwa [hsame, List.nodup_replicate] at honce

/-- A class or an interface is linked to another symbol as to a base if and only if that is a type of the
same file whose name stands in the header, and the header has the marks of inheritance. There is one such
edge then. -/
theorem base_edges (h : Distinct files) (hf : f ∈ files) (hs : s ∈ f.symbols)
    (hkind : s.kind = .classDecl ∨ s.kind = .interface) (ht : t ∈ files.flatMap (·.symbols)) (hne : t ≠ s) :
    let found := (build files).edges.filter fun e =>
      e.source == s.id && e.target == t.id && (e.kind == .inherits || e.kind == .implements)
    (found ≠ [] ↔ t ∈ f.symbols ∧ t.kind.isTypeLike = true ∧ hasInheritanceMarker s.header = true ∧
      t.name ∈ identifiers s.header) ∧
    (found ≠ [] → ∃ e, found = [e] ∧
      e.kind = if t.kind = .interface ∧ s.kind ≠ .interface then .implements else .inherits) := by
  intro found
  have hmem {e : Edge} : e ∈ found ↔ e ∈ (build files).edges ∧ isBaseEdge s.id t.id e = true :=
    List.mem_filter
  refine ⟨?_, fun hsome => ?_⟩
  · rw [← exists_isBaseEdge_iff h hf hs hkind ht hne, ← List.length_pos_iff, List.length_pos_iff_exists_mem]
    simp only [hmem]
  · have hrelation : ∀ e ∈ found, e.relation = (s.id, t.id, baseKind s t) := fun e he =>
      (names_of_isBaseEdge h hf hs ht (hmem.mp he).1 (hmem.mp he).2).2.2
    obtain ⟨links, hrecords, -⟩ := told_build files
    have honce : (found.map Edge.relation).Nodup := by
      refine (nodup_relations_merged links).sublist ?_
      rw [← hrecords.edges]
      exact List.filter_sublist.map _
    have hlength := length_le_one_of_relation_eq honce hrelation
    have hpos := List.length_pos_iff.mpr hsome
    obtain ⟨e, he⟩ := List.length_eq_one_iff.mp (by omega : found.length = 1)
    have hkindOf : e.kind = baseKind s t := congrArg (·.2.2) (hrelation e (by simp [he]))
    refine ⟨e, he, ?_⟩
    rw [hkindOf]
    simp [baseKind]

def square : Symbol :=
  ⟨"square", "", "Square", .classDecl, ⟨6, 6⟩, ⟨9, 1⟩, "class Square(Shape, object) \x7b", "", "", []⟩

def shapeRecord : Symbol :=
  ⟨"record", "", "Shape", .struct, ⟨5, 7⟩, ⟨5, 12⟩, "struct Shape", "", "", []⟩

/-- A class with two bases, one of them with a name that two types have, the other one with a name that
the first pass passes over. -/
def squares : FileRecord :=
  ⟨"squares", "p",
    [⟨"object", "", "object", .interface, ⟨1, 10⟩, ⟨1, 16⟩, "interface object", "", "", []⟩,
      ⟨"shape", "", "Shape", .classDecl, ⟨2, 6⟩, ⟨4, 1⟩, "class Shape \x7b", "", "", []⟩,
      shapeRecord, square], [], []⟩

theorem base_edges_of_square :
    (Distinct [squares] ∧ square ∈ squares.symbols ∧ square.kind = .classDecl ∧
      shapeRecord ∈ [squares].flatMap (·.symbols) ∧ shapeRecord ≠ square) ∧
    ∃ e ∈ (build [squares]).edges, e.target = "record" ∧ e.kind = .inherits := by
  have hdistinct : Distinct [squares] := by decide +kernel
  have hsquare : square ∈ squares.symbols := by simp [squares]
  have hrecord : shapeRecord ∈ [squares].flatMap (·.symbols) := by simp [squares]
  have hne : shapeRecord ≠ square := by decide
  obtain ⟨hlinked, hone⟩ := base_edges hdistinct (by simp) hsquare (.inl rfl) hrecord hne
  obtain ⟨e, he, hkind⟩ := hone (hlinked.mpr ⟨by simp [squares], rfl, by decide +kernel, by decide +kernel⟩)
  have hmem := List.mem_filter.mp (he ▸ List.mem_singleton_self e)
  obtain ⟨⟨-, htarget⟩, -⟩ := by simpa using hmem.2
  exact ⟨⟨hdistinct, hsquare, rfl, hrecord, hne⟩, e, hmem.1, htarget, hkind⟩

end SymbolGraph

end CodeAtlas
