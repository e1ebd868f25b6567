import CodeAtlas.Proofs.Graph.Building
import Mathlib.Data.Prod.Lex

/-!
# The symbol around a place

A usage belongs to a symbol whose span holds its place. Of several such symbols the one that begins last is
taken, and of those that begin at the same place the last in the list. Ends are not compared: a span
strictly inside another one is preferred if it begins later, but not if both begin together.
-/

namespace CodeAtlas

namespace Position

/-- Places in the order in which a text is read. -/
instance : LinearOrder Position :=
  LinearOrder.lift' (fun p => toLex (p.line, p.column)) fun p q h => by
    cases p
    cases q
    simpa using h

theorem before_iff_lt {p q : Position} : p.before q = true ↔ p < q := by
  change _ ↔ toLex (p.line, p.column) < toLex (q.line, q.column)
  rw [Prod.Lex.toLex_lt_toLex, before]
  split
  · rename_i hline
    simp [hline]
  · rename_i hline
    rw [not_not] at hline
    simp [hline]

end Position

theorem Symbol.contains_iff {s : Symbol} {p : Position} :
    s.contains p = true ↔ s.first ≤ p ∧ p ≤ s.last := by
  simp [contains, ← not_lt, ← Position.before_iff_lt]

/-- The span of a symbol lies in that of another one and is not the same. -/
def Symbol.StrictlyInside (s t : Symbol) : Prop :=
  t.first ≤ s.first ∧ s.last ≤ t.last ∧ (s.first, s.last) ≠ (t.first, t.last)

instance (s t : Symbol) : Decidable (s.StrictlyInside t) :=
  inferInstanceAs (Decidable (_ ∧ _ ∧ _))

namespace Build

variable {symbols symbols' : List Symbol} {place : Position} {callableOnly : Bool} {s i : Symbol}

/-- A symbol that may own a usage at a place. -/
def Qualifies (place : Position) (callableOnly : Bool) (s : Symbol) : Prop :=
  (callableOnly = true → s.kind.isCallable = true) ∧ s.contains place = true

instance (place : Position) (callableOnly : Bool) :
    DecidablePred (Qualifies place callableOnly) :=
  fun _ => inferInstanceAs (Decidable (_ ∧ _))

theorem enclosing?_append_singleton (symbols : List Symbol) (s : Symbol) :
    enclosing? (symbols ++ [s]) place callableOnly =
      if Qualifies place callableOnly s then
        match enclosing? symbols place callableOnly with
        | none => some s
        | some i => if i.contains s.first then some s else some i
      else enclosing? symbols place callableOnly := by
  have hcounts : ((!callableOnly || s.kind.isCallable) && s.contains place) = true ↔
      Qualifies place callableOnly s := by
    cases callableOnly <;> simp [Qualifies]
  have hlast : enclosing? (symbols ++ [s]) place callableOnly =
      if (!callableOnly || s.kind.isCallable) && s.contains place then
        match enclosing? symbols place callableOnly with
        | none => some s
        | some i => if i.contains s.first then some s else enclosing? symbols place callableOnly
      else enclosing? symbols place callableOnly := by
    unfold enclosing?
    rw [List.foldl_append]
    rfl
  rw [hlast]
  simp only [hcounts]
  cases enclosing? symbols place callableOnly <;> rfl

/-- Around one place a symbol contains the beginning of another one if it does not begin after it. -/
theorem Qualifies.contains_first_iff (hi : Qualifies place callableOnly i)
    (hs : Qualifies place callableOnly s) : i.contains s.first = true ↔ i.first ≤ s.first := by
  obtain ⟨-, hend⟩ := Symbol.contains_iff.mp hi.2
  obtain ⟨hstart, -⟩ := Symbol.contains_iff.mp hs.2
  rw [Symbol.contains_iff]
  exact ⟨And.left, fun h => ⟨h, hstart.trans hend⟩⟩

theorem enclosing?_eq_none_iff : enclosing? symbols place callableOnly = none ↔
    ∀ s ∈ symbols, ¬Qualifies place callableOnly s := by
  induction symbols using List.reverseRecOn with
  | nil => simp [enclosing?]
  | append_singleton symbols s ih =>
      rw [enclosing?_append_singleton]
      split
      · rename_i hs
        have hmem : s ∈ symbols ++ [s] := by simp
        refine ⟨fun h => ?_, fun h => absurd hs (h s hmem)⟩
        split at h
        · cases h
        · split at h <;> cases h
      · rename_i hs
        simp [ih, or_imp, forall_and, hs]

/-- What is returned stands between symbols that do not begin after it and symbols that begin before it,
as far as they are around the place. -/
theorem exists_split_of_enclosing? (h : enclosing? symbols place callableOnly = some i) :
    Qualifies place callableOnly i ∧ ∃ before after, symbols = before ++ i :: after ∧
      (∀ s ∈ before, Qualifies place callableOnly s → s.first ≤ i.first) ∧
      ∀ s ∈ after, Qualifies place callableOnly s → s.first < i.first := by
  induction symbols using List.reverseRecOn generalizing i with
  | nil => simp [enclosing?] at h
  | append_singleton symbols s ih =>
      rw [enclosing?_append_singleton] at h
      split at h
      case isFalse hs =>
        obtain ⟨hi, before, after, rfl, hbefore, hafter⟩ := ih h
        refine ⟨hi, before, after ++ [s], by simp, hbefore, fun t ht hcounts => ?_⟩
        rcases List.mem_append.mp ht with ht | ht
        · exact hafter t ht hcounts
        · exact absurd (List.mem_singleton.mp ht ▸ hcounts) hs
      case isTrue hs =>
        split at h
        case h_1 hnone =>
          obtain rfl := Option.some.inj h
          refine ⟨hs, symbols, [], rfl, fun t ht hcounts => ?_, by simp⟩
          exact absurd hcounts (enclosing?_eq_none_iff.mp hnone t ht)
        case h_2 j hsome =>
          obtain ⟨hj, before, after, rfl, hbefore, hafter⟩ := ih hsome
          simp only [hj.contains_first_iff hs] at h
          split at h
          · rename_i hlater
            obtain rfl := Option.some.inj h
            refine ⟨hs, before ++ j :: after, [], rfl, fun t ht hcounts => ?_, by simp⟩
            -- the choice so far began last, and what comes now does not begin before it
            refine le_trans ?_ hlater
            rcases List.mem_append.mp ht with ht | ht
            · exact hbefore t ht hcounts
            · rcases List.mem_cons.mp ht with rfl | ht
              · exact le_rfl
              · exact (hafter t ht hcounts).le
          · rename_i hearlier
            obtain rfl := Option.some.inj h
            refine ⟨hj, before, after ++ [s], by simp, hbefore, fun t ht hcounts => ?_⟩
            rcases List.mem_append.mp ht with ht | ht
            · exact hafter t ht hcounts
            · rw [List.mem_singleton.mp ht]
              exact not_le.mp hearlier

/-- No symbol around the place begins after the one that is returned. -/
theorem first_le_of_enclosing? (h : enclosing? symbols place callableOnly = some i) (hs : s ∈ symbols)
    (hcounts : Qualifies place callableOnly s) : s.first ≤ i.first := by
  obtain ⟨-, before, after, rfl, hbefore, hafter⟩ := exists_split_of_enclosing? h
  rw [List.mem_append, List.mem_cons] at hs
  rcases hs with hs | rfl | hs
  · exact hbefore s hs hcounts
  · exact le_rfl
  · exact (hafter s hs hcounts).le

/-- Where symbols around a place that begin together are the same, their order does not matter. -/
theorem enclosing?_eq_of_perm (hperm : symbols'.Perm symbols)
    (hfirst : ∀ s ∈ symbols, ∀ t ∈ symbols, Qualifies place callableOnly s →
      Qualifies place callableOnly t → s.first = t.first → s = t) :
    enclosing? symbols' place callableOnly = enclosing? symbols place callableOnly := by
  cases hchosen : enclosing? symbols place callableOnly with
  | none =>
      rw [enclosing?_eq_none_iff] at hchosen ⊢
      exact fun s hs => hchosen s (hperm.mem_iff.mp hs)
  | some i =>
      have hi := (exists_split_of_enclosing? hchosen).1
      have hmem := mem_of_enclosing? hchosen
      cases hchosen' : enclosing? symbols' place callableOnly with
      | none => exact absurd hi (enclosing?_eq_none_iff.mp hchosen' i (hperm.mem_iff.mpr hmem))
      | some j =>
          have hj := (exists_split_of_enclosing? hchosen').1
          have hmem' := hperm.mem_iff.mp (mem_of_enclosing? hchosen')
          have hlast := first_le_of_enclosing? hchosen hmem' hj
          have hlast' := first_le_of_enclosing? hchosen' (hperm.mem_iff.mpr hmem) hi
          rw [hfirst j hmem' i hmem hj hi (le_antisymm hlast hlast')]

/-- A symbol is returned if and only if one is around the place, and then it is one of those that begin
last. A symbol around the place whose span is strictly inside that of the returned one begins together with
it and stands before it in the list. The order of the list does not matter if no two symbols around the
place begin together. -/
theorem enclosing_begins_last (symbols : List Symbol) (place : Position) (callableOnly : Bool) :
    (enclosing? symbols place callableOnly = none ↔
      ∀ s ∈ symbols, ¬Qualifies place callableOnly s) ∧
    (∀ i, enclosing? symbols place callableOnly = some i → Qualifies place callableOnly i ∧
      ∃ before after, symbols = before ++ i :: after ∧
        ∀ s ∈ symbols, Qualifies place callableOnly s → s.first ≤ i.first ∧
          (s.StrictlyInside i → s.first = i.first ∧ s ∈ before ∧ s ∉ after)) ∧
    ((∀ s ∈ symbols, ∀ t ∈ symbols, Qualifies place callableOnly s → Qualifies place callableOnly t →
        s.first = t.first → s = t) →
      ∀ symbols', symbols'.Perm symbols →
        enclosing? symbols' place callableOnly = enclosing? symbols place callableOnly) := by
  refine ⟨enclosing?_eq_none_iff, fun i hi => ?_, fun hfirst symbols' hperm =>
    enclosing?_eq_of_perm hperm hfirst⟩
  obtain ⟨hcounts, before, after, hsplit, -, hafter⟩ := exists_split_of_enclosing? hi
  refine ⟨hcounts, before, after, hsplit, fun s hs hs' => ?_⟩
  have hle := first_le_of_enclosing? hi hs hs'
  refine ⟨hle, fun hinside => ?_⟩
  have hfirst : s.first = i.first := le_antisymm hle hinside.1
  have hlate : s ∉ after := fun hmem => (hafter s hmem hs').ne hfirst
  refine ⟨hfirst, ?_, hlate⟩
  rw [hsplit, List.mem_append, List.mem_cons] at hs
  rcases hs with hs | rfl | hs
  · exact hs
  · exact absurd rfl hinside.2.2
  · exact absurd hs hlate

/-- A class and its constructor of the same name, written on one line and ended on different ones. -/
def sameBeginning : List Symbol :=
  [⟨"new", "", "Foo", .method, ⟨1, 6⟩, ⟨3, 0⟩, "Foo()", "Foo", "", []⟩,
    ⟨"type", "", "Foo", .classDecl, ⟨1, 6⟩, ⟨5, 0⟩, "class Foo", "", "", []⟩]

/-- In the constructor the class is returned, although the span of the constructor is strictly inside that
of the class, and in the other order the constructor is returned. -/
theorem innermost_not_returned : ∃ inner ∈ sameBeginning, ∃ outer ∈ sameBeginning,
    Qualifies ⟨2, 4⟩ false inner ∧ Qualifies ⟨2, 4⟩ false outer ∧ inner.StrictlyInside outer ∧
      enclosing? sameBeginning ⟨2, 4⟩ false = some outer ∧
      enclosing? sameBeginning.reverse ⟨2, 4⟩ false = some inner := by
  decide +kernel

end Build

end CodeAtlas
