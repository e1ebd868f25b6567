import CodeAtlas.Proofs.Graph.Observed

/-!
# Members of types

A symbol with a scope belongs to the first type of its file that has the name which the scope is searched
for. In a scope of one part this name is the scope. In a nested scope the search begins at the last colon
of the last separator, so that the name is the last part with one colon before it.
-/

namespace CodeAtlas

namespace Build

/-- The part of a scope after its last separator. -/
def lastPart (scope : String) : String := (scopeParts [] scope.toList).getLastD ""

/-- A part as it is found from the last colon before it. -/
def colonBefore (part : String) : String :=
  if part.toList.head? = some ':' then part else String.ofList (':' :: part.toList)

/-- The name that the type around a scope is searched by. -/
def soughtName (scope : String) : String :=
  if (scopeParts [] scope.toList).length = 1 then lastPart scope else colonBefore (lastPart scope)

/-- The first type of a file with a name, besides a symbol. -/
def otherType? (f : FileRecord) (s : Symbol) (name : String) : Option Symbol :=
  f.symbols.find? fun t => t.kind.isTypeLike && t != s && t.name == name

/-- Files and symbols can be told apart by their identifiers. -/
structure Distinct (files : List FileRecord) : Prop where
  ofFiles : (files.map (·.fileId)).Nodup
  ofSymbols : ((files.flatMap (·.symbols)).map (·.id)).Nodup

instance (files : List FileRecord) : Decidable (Distinct files) :=
  decidable_of_iff (_ ∧ _) ⟨fun h => ⟨h.1, h.2⟩, fun h => ⟨h.ofFiles, h.ofSymbols⟩⟩

def isContainment (kind : EdgeKind) : Bool := kind == .contains

variable {files : List FileRecord} {f : FileRecord} {s t : Symbol} {a b : String}

/-! ## The parts of a scope -/

theorem scopeParts_ne_nil (part rest : List Char) : scopeParts part rest ≠ [] := by
  fun_induction scopeParts part rest with
  | case1 => exact List.cons_ne_nil _ _
  | case2 => assumption
  | case3 => exact List.cons_ne_nil _ _

/-- Reading on, a part without a separator after it is the rest of the scope, and the search finds nothing
in it. Otherwise it finds the last part from the last colon before it. -/
theorem search_scopeParts (part rest : List Char) :
    ((scopeParts part rest).length = 1 →
      scopeParts part rest = [String.ofList (part.reverse ++ rest)] ∧
        ∀ found, ownerName.search found rest = found) ∧
    ((scopeParts part rest).length ≠ 1 → ∀ found, ownerName.search found rest =
      (colonBefore ((scopeParts part rest).getLastD "")).toList) := by
  fun_induction scopeParts part rest with
  | case1 part rest ih =>
      obtain ⟨hsingle, hnested⟩ := ih
      have hparts := scopeParts_ne_nil [] rest
      refine ⟨fun h => absurd (List.length_eq_zero_iff.mp (by simpa using h)) hparts, fun _ found => ?_⟩
      have hlast : (String.ofList part.reverse :: scopeParts [] rest).getLastD "" =
          (scopeParts [] rest).getLastD "" := by
        rw [List.getLastD_cons, List.getLastD_eq_getLast?, List.getLastD_eq_getLast?]
        simp [List.getLast?_eq_some_getLast hparts]
      rw [hlast, ownerName.search, ownerName.search]
      by_cases hone : (scopeParts [] rest).length = 1
      · obtain ⟨heq, hfound⟩ := hsingle hone
        rw [hfound, heq]
        by_cases hcolon : rest.head? = some ':' <;> simp [colonBefore, hcolon]
      · exact hnested hone _
  | case2 part c rest hsep ih =>
      have hstep (found : List Char) :
          ownerName.search found (c :: rest) = ownerName.search found rest := by
        have hnone : (c == ':' && rest.head? == some ':') = false := by
          rw [Bool.and_eq_false_imp, beq_iff_eq]
          intro hc
          cases rest with
          | nil => rfl
          | cons d rest => simpa using fun hd => hsep rest hc (by rw [hd])
        rw [ownerName.search, hnone]
        rfl
      simpa [hstep] using ih
  | case3 part => simp [ownerName.search]

theorem ownerName_eq (scope : String) : ownerName scope = soughtName scope := by
  obtain ⟨hsingle, hnested⟩ := search_scopeParts [] scope.toList
  unfold ownerName soughtName lastPart
  split
  · rename_i hone
    obtain ⟨heq, hfound⟩ := hsingle hone
    rw [hfound, heq]
    simp
  · rename_i hmany
    rw [hnested hmany, String.ofList_toList]

/-- The owner is searched by the last part of its scope, unless the scope is nested and no colon is left
over at the beginning of that part. -/
theorem soughtName_eq_lastPart_iff (scope : String) : soughtName scope = lastPart scope ↔
    (scopeParts [] scope.toList).length = 1 ∨ (lastPart scope).toList.head? = some ':' := by
  unfold soughtName colonBefore
  split_ifs with hone hcolon
  · simp [hone]
  · simp [hcolon]
  · simp only [hone, hcolon, or_self, iff_false]
    intro heq
    have hlength := congrArg (·.toList.length) heq
    simp at hlength

/-! ## What the files tell of members -/

theorem Distinct.symbolsOfFile_eq (h : Distinct files) (hf : f ∈ files) :
    symbolsOfFile files f.fileId = f.symbols := by
  obtain ⟨before, after, rfl⟩ := List.append_of_mem hf
  have hids := h.ofFiles
  rw [List.map_append, List.map_cons, List.nodup_middle, List.nodup_cons, List.mem_append] at hids
  have hnone (others : List FileRecord) (hothers : f.fileId ∉ others.map (·.fileId)) :
      others.filter (·.fileId == f.fileId) = [] := by
    refine List.filter_eq_nil_iff.mpr fun g hg heq => hothers ?_
    rw [← beq_iff_eq.mp heq]
    exact List.mem_map_of_mem hg
  have hbefore := hnone before fun hmem => hids.1 (.inl hmem)
  have hafter := hnone after fun hmem => hids.1 (.inr hmem)
  simp [symbolsOfFile, hbefore, hafter]

theorem Distinct.eq_of_id_eq (h : Distinct files) (hf : f ∈ files) (hs : s ∈ f.symbols)
    (ht : t ∈ f.symbols) (heq : t.id = s.id) : t = s :=
  List.inj_on_of_nodup_map h.ofSymbols (List.mem_flatMap_of_mem hf ht) (List.mem_flatMap_of_mem hf hs) heq

theorem Distinct.typeNamed?_eq (h : Distinct files) (hf : f ∈ files) (hs : s ∈ f.symbols) (name : String) :
    typeNamed? files f s name = otherType? f s name := by
  unfold typeNamed? otherType?
  rw [h.symbolsOfFile_eq hf, ← List.head?_filter, ← List.head?_filter]
  refine congrArg List.head? (List.filter_congr fun t ht => ?_)
  have hother : (t.id != s.id) = (t != s) := by
    rw [Bool.eq_iff_iff, bne_iff_ne, bne_iff_ne]
    exact not_congr ⟨h.eq_of_id_eq hf hs ht, congrArg Symbol.id⟩
  rw [hother, Bool.and_comm, Bool.and_assoc, Bool.and_comm (t.name == name)]

theorem besidesBases_isContainment : BesidesBases isContainment := ⟨rfl, rfl⟩

/-- The observation that a symbol is a member of a type. -/
def memberLink (f : FileRecord) (owner s : Symbol) : Link :=
  ⟨owner.id, s.id, .contains, strengthOf .contains, some ⟨f.fileId, s.first, s.last⟩,
    ⟨0, false, false, .unknown⟩⟩

theorem Distinct.containment?_eq_some_iff (h : Distinct files) (hf : f ∈ files) (hs : s ∈ f.symbols)
    {l : Link} : containment? files f s = some l ↔
      s.scope ≠ "" ∧
        ∃ owner, otherType? f s (soughtName s.scope) = some owner ∧ memberLink f owner s = l := by
  unfold containment?
  rw [h.typeNamed?_eq hf hs, ownerName_eq]
  by_cases hscope : s.scope = ""
  · simp [hscope]
  · rw [if_neg (by simpa using hscope), Option.map_eq_some_iff]
    exact (and_iff_right hscope).symm

/-- Members are observed where they are declared, and nowhere else. -/
theorem mem_observed_contains {l : Link} (hkind : l.kind = .contains) :
    l ∈ observed files f ↔ ∃ s ∈ f.symbols, containment? files f s = some l := by
  unfold observed
  rw [List.mem_append, List.mem_filterMap, List.mem_flatMap]
  constructor
  · rintro (⟨u, -, hu⟩ | ⟨s, hs, hl⟩)
    · rcases kinds_of_ofUsage? hu with ⟨-, h | h⟩ | ⟨-, h | h⟩ | ⟨-, h⟩
      all_goals
        rw [hkind] at h
        cases h
    · refine ⟨s, hs, ?_⟩
      rcases List.mem_append.mp hl with hl | hl
      · split at hl
        · obtain ⟨target, -, rfl⟩ := List.mem_map.mp hl
          cases hkind
        · cases hl
      · exact Option.mem_toList.mp hl
  · rintro ⟨s, hs, hl⟩
    exact .inr ⟨s, hs, List.mem_append_right _ (Option.mem_toList.mpr hl)⟩

theorem Distinct.exists_observed_member_iff (h : Distinct files) (a b : String) :
    (∃ l ∈ (files.flatMap (observed files)).filter (isNoted isContainment),
        l.relation = (a, b, .contains)) ↔
      ∃ f ∈ files, ∃ s ∈ f.symbols, s.id = b ∧ s.scope ≠ "" ∧
        (otherType? f s (soughtName s.scope)).map (·.id) = some a := by
  simp only [Option.map_eq_some_iff]
  constructor
  · rintro ⟨l, hl, hrelation⟩
    have hkind : l.kind = .contains := congrArg (·.2.2) hrelation
    obtain ⟨f, hf, hl⟩ := List.mem_flatMap.mp (List.mem_of_mem_filter hl)
    obtain ⟨s, hs, hl⟩ := (mem_observed_contains hkind).mp hl
    obtain ⟨hscope, owner, howner, rfl⟩ := (h.containment?_eq_some_iff hf hs).mp hl
    exact ⟨f, hf, s, hs, congrArg (·.2.1) hrelation, hscope, owner, howner, congrArg (·.1) hrelation⟩
  · rintro ⟨f, hf, s, hs, rfl, hscope, owner, howner, rfl⟩
    have hlink := (h.containment?_eq_some_iff hf hs).mpr ⟨hscope, owner, howner, rfl⟩
    refine ⟨memberLink f owner s, List.mem_filter.mpr ⟨List.mem_flatMap_of_mem hf ?_, ?_⟩, rfl⟩
    · exact (mem_observed_contains rfl).mpr ⟨s, hs, hlink⟩
    · have hother := List.find?_some howner
      have hmem := List.mem_of_find?_eq_some howner
      have hne : owner.id ≠ s.id := fun heq => by
        simp [h.eq_of_id_eq hf hs hmem heq] at hother
      simp [isNoted, isContainment, memberLink, hne]

end Build

namespace SymbolGraph

open Build

variable {files : List FileRecord}

theorem exists_contains_edge_iff (h : Distinct files) (a b : String) :
    (∃ e ∈ (build files).edges, e.relation = (a, b, .contains)) ↔
      ∃ f ∈ files, ∃ s ∈ f.symbols, s.id = b ∧ s.scope ≠ "" ∧
        (otherType? f s (soughtName s.scope)).map (·.id) = some a :=
  ((notes_build files besidesBases_isContainment).exists_edge_iff rfl).trans
    (h.exists_observed_member_iff a b)

/-- A symbol with a scope is contained in the first other type of its file with the name that is searched
for, and there are no other edges for containment. The name is the last part of the scope, so that the type
is the one that the scope names, if the scope has one part; in a nested scope it is so only if the last part
begins with a colon, and otherwise that part is searched for with a colon before it. -/
theorem contains_edges (h : Distinct files) :
    (∀ a b, (∃ e ∈ (build files).edges, e.relation = (a, b, .contains)) ↔
      ∃ f ∈ files, ∃ s ∈ f.symbols, s.id = b ∧ s.scope ≠ "" ∧
        (otherType? f s (soughtName s.scope)).map (·.id) = some a) ∧
    (∀ scope, soughtName scope = lastPart scope ↔
      (scopeParts [] scope.toList).length = 1 ∨ (lastPart scope).toList.head? = some ':') ∧
    ∀ f ∈ files, ∀ s ∈ f.symbols, s.scope ≠ "" → (scopeParts [] s.scope.toList).length = 1 →
      ∀ owner, otherType? f s (lastPart s.scope) = some owner →
        ∃ e ∈ (build files).edges, e.relation = (owner.id, s.id, .contains) := by
  refine ⟨exists_contains_edge_iff h, soughtName_eq_lastPart_iff, ?_⟩
  intro f hf s hs hscope hone owner howner
  refine (exists_contains_edge_iff h _ _).mpr ⟨f, hf, s, hs, rfl, hscope, ?_⟩
  rw [(soughtName_eq_lastPart_iff s.scope).mpr (.inl hone), howner]
  rfl

/-- A class in a namespace, with a method in the scope of both. -/
def nestedScopes : FileRecord :=
  ⟨"f", "p",
    [⟨"a", "", "A", .nameSpace, ⟨1, 10⟩, ⟨7, 0⟩, "namespace A", "", "", []⟩,
      ⟨"b", "", "B", .classDecl, ⟨2, 8⟩, ⟨6, 0⟩, "class B", "A", "", []⟩,
      ⟨"m", "", "run", .method, ⟨3, 9⟩, ⟨5, 0⟩, "void run()", "A::B", "", []⟩,
      ⟨"n", "", "stop", .method, ⟨5, 9⟩, ⟨5, 20⟩, "void stop()", "B", "", []⟩], [], []⟩

theorem contains_edges_nested_scopes : Distinct [nestedScopes] ∧
    ∃ e ∈ (build [nestedScopes]).edges, e.relation = ("b", "n", .contains) := by
  have hdistinct : Distinct [nestedScopes] := by decide +kernel
  exact ⟨hdistinct, ((contains_edges hdistinct).1 "b" "n").mpr (by decide +kernel)⟩

/-- The method is in the scope of the class, the first type with the name of the last part, and is not
contained in it. -/
theorem nested_member_not_contained : Distinct [nestedScopes] ∧
    ∃ s ∈ nestedScopes.symbols, s.scope ≠ "" ∧
      ∃ owner, otherType? nestedScopes s (lastPart s.scope) = some owner ∧
        ¬∃ e ∈ (build [nestedScopes]).edges, e.relation = (owner.id, s.id, .contains) := by
  have hdistinct : Distinct [nestedScopes] := by decide +kernel
  refine ⟨hdistinct, nestedScopes.symbols[2], by decide +kernel, by decide +kernel,
    nestedScopes.symbols[1], by decide +kernel, ?_⟩
  rw [exists_contains_edge_iff hdistinct]
  decide +kernel

end SymbolGraph

end CodeAtlas
