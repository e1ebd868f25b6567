import CodeAtlas.Text.CharClass
import Mathlib.Tactic.ByContra

/-!
# Looking up code points

A table whose records are in order can be read from its beginning instead of being searched: what holds at a
code point is what the last record says that starts at or before it.
-/

namespace CodeAtlas.Table

variable {table : Table} {size code : Nat}

/-- Where a record starts. -/
def start (table : Table) (size i : Nat) : Nat := table.numbers[i * size]?.getD 0

/-- The starts of the records from `lo` to `hi - 1` do not go down. -/
def Ordered (table : Table) (size lo hi : Nat) : Prop :=
  ∀ i j, lo ≤ i → i ≤ j → j < hi → table.start size i ≤ table.start size j

/-- What the search finds starts at or before a code point. -/
theorem search_bounds {lo hi i : Nat} (h : table.search size code lo hi = some i) :
    lo ≤ i ∧ i < hi ∧ table.start size i ≤ code := by
  fun_induction search table size code lo hi with
  | case1 lo hi hlt mid hmid ih =>
      have hbounds : lo ≤ mid ∧ mid < hi := by omega
      cases hsearch : search table size code (mid + 1) hi with
      | none =>
          obtain rfl : mid = i := by simpa [hsearch] using h
          exact ⟨hbounds.1, hbounds.2, hmid⟩
      | some k =>
          obtain rfl : k = i := by simpa [hsearch] using h
          obtain ⟨hlo, hhi, hstart⟩ := ih hsearch
          exact ⟨by omega, hhi, hstart⟩
  | case2 lo hi hlt mid hmid ih =>
      obtain ⟨hlo, hhi, hstart⟩ := ih h
      exact ⟨hlo, by omega, hstart⟩
  | case3 lo hi hlt => cases h

/-- If the records are in order, no later one starts at or before a code point. -/
theorem le_search {lo hi j : Nat} (h : table.Ordered size lo hi) (hlo : lo ≤ j) (hhi : j < hi)
    (hstart : table.start size j ≤ code) : ∃ i, table.search size code lo hi = some i ∧ j ≤ i := by
  fun_induction search table size code lo hi with
  | case1 lo hi hlt mid hmid ih =>
      by_cases hj : mid < j
      · obtain ⟨i, hi', hle⟩ := ih (fun i j hi' hj hjh => h i j (by omega) hj hjh) hj hhi
        exact ⟨i, by rw [hi', Option.some_or], hle⟩
      · cases hsearch : search table size code (mid + 1) hi with
        | none => exact ⟨mid, by simp, by omega⟩
        | some k => exact ⟨k, by simp, by have := (search_bounds hsearch).1; omega⟩
  | case2 lo hi hlt mid hmid ih =>
      have hbelow : j < mid := by
        by_contra hnot
        have hge := h mid j (by omega) (by omega) hhi
        simp only [start] at hge hstart
        omega
      exact ih (fun i j hi' hj hjh => h i j hi' hj (by omega)) hlo hbelow
  | case3 lo hi hlt => omega

/-! ## Pairs -/

/-- What the last of some pairs says that starts at or before a code point. -/
def lastAt (code best : Nat) : List Nat → Nat
  | first :: value :: rest => if first ≤ code then lastAt code value rest else best
  | _ => best

/-- The pairs are complete, and each starts after the one before. -/
def ascending : List Nat → Bool
  | [] => true
  | [_, _] => true
  | first :: _ :: second :: rest => first < second && ascending (second :: rest)
  | _ => false

theorem start_mono {numbers : List Nat} (h : ascending numbers = true) {i j : Nat} (hij : i ≤ j)
    (hj : j * 2 < numbers.length) : numbers[i * 2]?.getD 0 ≤ numbers[j * 2]?.getD 0 := by
  induction numbers using ascending.induct generalizing i j with
  | case1 => simp at hj
  | case2 first value =>
      obtain ⟨rfl, rfl⟩ : i = 0 ∧ j = 0 := by
        simp only [List.length_cons, List.length_nil] at hj
        omega
      exact Nat.le_refl _
  | case3 first value second rest ih =>
      rw [ascending, Bool.and_eq_true, decide_eq_true_eq] at h
      have hnext (k : Nat) : (first :: value :: second :: rest)[(k + 1) * 2]? = (second :: rest)[k * 2]? := by
        simp [Nat.add_mul]
      cases j with
      | zero =>
          obtain rfl : i = 0 := Nat.le_zero.mp hij
          exact Nat.le_refl _
      | succ j =>
          have hj' : j * 2 < (second :: rest).length := by
            simp only [List.length_cons] at hj ⊢
            omega
          rw [hnext]
          cases i with
          | zero => exact Nat.le_trans (Nat.le_of_lt h.1) (ih h.2 (Nat.zero_le j) hj')
          | succ i =>
              rw [hnext]
              exact ih h.2 (Nat.le_of_succ_le_succ hij) hj'
  | case4 numbers h₁ h₂ h₃ =>
      rw [ascending] at h
      · cases h
      all_goals assumption

theorem length_ascending {numbers : List Nat} (h : ascending numbers = true) : numbers.length % 2 = 0 := by
  induction numbers using ascending.induct with
  | case1 => rfl
  | case2 first value => simp
  | case3 first value second rest ih =>
      rw [ascending, Bool.and_eq_true] at h
      have hrest := ih h.2
      simp only [List.length_cons] at hrest ⊢
      omega
  | case4 numbers h₁ h₂ h₃ =>
      rw [ascending] at h
      · cases h
      all_goals assumption

theorem lastAt_eq_best {numbers : List Nat} {best : Nat}
    (hbeyond : ∀ j, j * 2 < numbers.length → code < numbers[j * 2]?.getD 0) : lastAt code best numbers = best := by
  match numbers with
  | [] => rfl
  | [_] => rfl
  | first :: value :: rest =>
      have hfirst := hbeyond 0 (by simp)
      exact if_neg (Nat.not_le.mpr hfirst)

theorem lastAt_eq {numbers : List Nat} (h : ascending numbers = true) {best i : Nat}
    (hi : i * 2 < numbers.length) (hstart : numbers[i * 2]?.getD 0 ≤ code)
    (hlast : ∀ j, j * 2 < numbers.length → numbers[j * 2]?.getD 0 ≤ code → j ≤ i) :
    lastAt code best numbers = numbers[i * 2 + 1]?.getD 0 := by
  induction numbers using ascending.induct generalizing best i with
  | case1 => simp at hi
  | case2 first value =>
      obtain rfl : i = 0 := by
        simp only [List.length_cons, List.length_nil] at hi
        omega
      exact if_pos hstart
  | case3 first value second rest ih =>
      have hfirst : first ≤ code := Nat.le_trans (start_mono h (Nat.zero_le i) hi) hstart
      have hnext (k : Nat) : (first :: value :: second :: rest)[(k + 1) * 2]? = (second :: rest)[k * 2]? := by
        simp [Nat.add_mul]
      have hlength : (first :: value :: second :: rest).length = (second :: rest).length + 2 := rfl
      rw [lastAt, if_pos hfirst]
      cases i with
      | zero =>
          refine lastAt_eq_best fun j hj => ?_
          by_contra hle
          have := hlast (j + 1) (by omega) (by rw [hnext]; omega)
          omega
      | succ i =>
          rw [hnext] at hstart
          have hvalue : (first :: value :: second :: rest)[(i + 1) * 2 + 1]? = (second :: rest)[i * 2 + 1]? := by
            simp [Nat.add_mul]
          rw [hvalue]
          refine ih ?_ (by omega) hstart fun j hj hle => ?_
          · rw [ascending, Bool.and_eq_true] at h
            exact h.2
          · have := hlast (j + 1) (by omega) (by rwa [hnext])
            omega
  | case4 numbers h₁ h₂ h₃ =>
      rw [ascending] at h
      · cases h
      all_goals assumption

/-- A table of pairs can be read from its beginning. -/
theorem stretch_eq_lastAt (table : Table) (h : ascending table.numbers.toList = true) (code : Nat) :
    table.stretch code = lastAt code 0 table.numbers.toList := by
  have hsize : table.numbers.size = table.numbers.toList.length := Array.length_toList.symm
  have heven := length_ascending h
  have hget (k : Nat) : table.numbers[k]? = table.numbers.toList[k]? := Array.getElem?_toList.symm
  have hordered : table.Ordered 2 0 (table.numbers.size / 2) := by
    intro i j _ hij hj
    rw [start, start, hget, hget]
    exact start_mono h hij (by omega)
  have hlater (j : Nat) (hj : j * 2 < table.numbers.toList.length)
      (hle : table.numbers.toList[j * 2]?.getD 0 ≤ code) :
      ∃ i, table.search 2 code 0 (table.numbers.size / 2) = some i ∧ j ≤ i := by
    apply le_search hordered (Nat.zero_le j) (by omega)
    rwa [start, hget]
  unfold stretch
  cases hsearch : table.search 2 code 0 (table.numbers.size / 2) with
  | none =>
      refine (lastAt_eq_best fun j hj => ?_).symm
      by_contra hle
      obtain ⟨i, hi, -⟩ := hlater j hj (Nat.le_of_not_lt hle)
      rw [hsearch] at hi
      cases hi
  | some i =>
      obtain ⟨-, hi, hstart⟩ := search_bounds hsearch
      rw [start, hget] at hstart
      change table.numbers[i * 2 + 1]?.getD 0 = _
      rw [hget]
      refine (lastAt_eq h (by omega) hstart fun j hj hle => ?_).symm
      obtain ⟨k, hk, hjk⟩ := hlater j hj hle
      rw [hsearch] at hk
      rwa [Option.some.inj hk]

/-! ## Runs -/

/-- All runs of a table are like this. -/
def allRuns (good : Nat → Nat → Nat → Nat → Bool) : List Nat → Bool
  | first :: last :: step :: target :: rest => good first last step target && allRuns good rest
  | _ => true

theorem allRuns_getD {good : Nat → Nat → Nat → Nat → Bool} {numbers : List Nat} (h : allRuns good numbers = true)
    {i : Nat} (hi : i < numbers.length / 4) : good (numbers[i * 4]?.getD 0) (numbers[i * 4 + 1]?.getD 0)
      (numbers[i * 4 + 2]?.getD 1) (numbers[i * 4 + 3]?.getD 0) = true := by
  match numbers with
  | first :: last :: step :: target :: rest =>
      rw [allRuns, Bool.and_eq_true] at h
      cases i with
      | zero => simpa using h.1
      | succ i =>
          have hrest := allRuns_getD h.2 (i := i) (by simp only [List.length_cons] at hi; omega)
          simpa [Nat.add_mul] using hrest
  | [] | [_] | [_, _] | [_, _, _] => simp at hi

/-- A code point stays as it is or is moved by one of the runs. -/
theorem image_cases {good : Nat → Nat → Nat → Nat → Bool} (h : allRuns good table.numbers.toList = true)
    (code : Nat) : table.image code = code ∨ ∃ first last step target, good first last step target = true ∧
      first ≤ code ∧ code ≤ last ∧ table.image code = target + (code - first) := by
  unfold image
  cases hsearch : table.search 4 code 0 (table.numbers.size / 4) with
  | none => exact .inl rfl
  | some i =>
      obtain ⟨-, hi, hstart⟩ := search_bounds hsearch
      have hgood := allRuns_getD h (i := i) (by simpa using hi)
      simp only [Array.getElem?_toList] at hgood
      simp only
      split
      · next hin =>
          rw [Bool.and_eq_true, decide_eq_true_iff] at hin
          exact .inr ⟨_, _, _, _, hgood, hstart, hin.1, rfl⟩
      · exact .inl rfl

end CodeAtlas.Table

namespace CodeAtlas

/-- The table of the categories is in order. -/
theorem Category.ofChar_eq (c : Char) : Category.ofChar c =
    Category.all[Table.lastAt c.toNat 0 CharTable.category.numbers.toList]?.getD .unassigned := by
  have hascending : Table.ascending CharTable.category.numbers.toList = true := by decide +kernel
  rw [ofChar, Table.stretch_eq_lastAt _ hascending]

/-- A run of the case keys stays among the code points of characters beyond the first 128, with two exceptions. -/
def keptApart (first last _step target : Nat) : Bool :=
  (128 ≤ target && (target + (last - first) < 0xD800 ||
    (0xE000 ≤ target && target + (last - first) < 0x110000))) ||
    (first == last && [(0x17F, 0x53), (0x212A, 0x4B)].contains (first, target))

/-- Of the characters beyond the first 128, the long s and the sign of the kelvin alone differ by case alone from
one of these. -/
theorem caseKey_cases {c : Char} (hc : isAscii c = false) :
    isAscii (caseKey c) = false ∨ (c = '\u017F' ∧ caseKey c = 'S') ∨ (c = '\u212A' ∧ caseKey c = 'K') := by
  have hruns : Table.allRuns keptApart CharTable.toLeast.numbers.toList = true := by decide +kernel
  have hcode : 128 ≤ c.toNat := by simpa [isAscii] using hc
  simp only [caseKey, hc, Bool.false_eq_true, if_false]
  obtain hsame | ⟨first, last, step, target, hgood, hfirst, hlast, hmoved⟩ := Table.image_cases hruns c.toNat
  · left
    rw [hsame, Char.ofNat_toNat]
    exact hc
  · simp only [keptApart, Bool.or_eq_true, Bool.and_eq_true, decide_eq_true_eq, beq_iff_eq,
      List.contains_iff_mem, List.mem_cons, List.not_mem_nil, or_false, Prod.mk.injEq] at hgood
    rw [hmoved]
    obtain ⟨htarget, hvalid⟩ | ⟨rfl, ⟨rfl, rfl⟩ | ⟨rfl, rfl⟩⟩ := hgood
    · left
      have hchar : (target + (c.toNat - first)).isValidChar := by
        unfold Nat.isValidChar
        omega
      have hsame : (Char.ofNat (target + (c.toNat - first))).toNat = target + (c.toNat - first) := by
        rw [Char.ofNat, dif_pos hchar]
        rfl
      rw [isAscii, hsame, decide_eq_false_iff_not]
      omega
    · obtain rfl : c = '\u017F' := Char.toNat_inj.mp (Nat.le_antisymm hlast hfirst)
      exact .inr (.inl ⟨rfl, rfl⟩)
    · obtain rfl : c = '\u212A' := Char.toNat_inj.mp (Nat.le_antisymm hlast hfirst)
      exact .inr (.inr ⟨rfl, rfl⟩)

end CodeAtlas
