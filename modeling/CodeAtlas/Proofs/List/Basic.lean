import Mathlib.Data.List.Nodup
import Mathlib.Data.List.Sort
import Std.Data.HashMap.Lemmas
import Std.Data.HashSet.Lemmas

/-!
# Lists and tables

A list without its repetitions, a list that is told from its parts, where a beginning ends, and the first
answer of some that are all the same. A table of sets keeps pairs, each under its first component, and a table
of numbers counts elements, each under its own key. Sorting by keys goes through a table by its sorted keys.
-/

namespace CodeAtlas

theorem nodup_eraseDups {α : Type} [BEq α] [LawfulBEq α] (xs : List α) : xs.eraseDups.Nodup := by
  cases xs with
  | nil => simp
  | cons x rest =>
      rw [List.eraseDups_cons, List.nodup_cons]
      exact ⟨by simp [List.mem_eraseDups], nodup_eraseDups _⟩
termination_by xs.length
decreasing_by
  exact Nat.lt_succ_of_le (List.length_filter_le _ _)

/-- Parts of the same lengths can be told from what they are together. -/
theorem map_eq_of_flatMap_eq {α β : Type} {f : α → List β} {xs ys : List α}
    (hlengths : xs.map (fun x => (f x).length) = ys.map fun y => (f y).length)
    (hparts : xs.flatMap f = ys.flatMap f) : xs.map f = ys.map f := by
  induction xs generalizing ys with
  | nil =>
      obtain rfl : ys = [] := by simpa using hlengths.symm
      rfl
  | cons x rest ih =>
      obtain ⟨y, others, rfl⟩ : ∃ y others, ys = y :: others := by
        cases ys with
        | nil => simp at hlengths
        | cons y others => exact ⟨y, others, rfl⟩
      obtain ⟨hlength, hrest⟩ := List.cons.inj hlengths
      rw [List.flatMap_cons, List.flatMap_cons] at hparts
      obtain ⟨hfirst, hothers⟩ := List.append_inj hparts hlength
      rw [List.map_cons, List.map_cons, hfirst, ih hrest hothers]

theorem prefix_append_iff {α : Type} {p : α → Prop} {l a b : List α} (hl : ∀ x ∈ l, p x)
    (hb : ∀ x ∈ b.head?, ¬p x) : l <+: a ++ b ↔ l <+: a := by
  refine ⟨fun hprefix => ?_, fun hprefix => hprefix.trans (List.prefix_append a b)⟩
  induction l generalizing a with
  | nil => exact List.nil_prefix
  | cons x l ih =>
      cases a with
      | nil =>
          obtain ⟨last, hlast⟩ := hprefix
          rw [List.nil_append] at hlast
          exact absurd (hl x List.mem_cons_self) (hb x (by rw [← hlast]; rfl))
      | cons y a =>
          rw [List.cons_append, List.cons_prefix_cons] at hprefix
          obtain ⟨rfl, hrest⟩ := hprefix
          exact List.cons_prefix_cons.mpr ⟨rfl, ih (fun z hz => hl z (List.mem_cons_of_mem _ hz)) hrest⟩

theorem findSome?_eq_of_same {α β : Type} {f : α → Option β} {p : α → Bool} {b : β} {l : List α}
    (hf : ∀ a ∈ l, f a = if p a then some b else none) : l.findSome? f = if l.any p then some b else none := by
  induction l with
  | nil => rfl
  | cons a l ih =>
      rw [List.findSome?_cons, List.any_cons, hf a List.mem_cons_self,
        ih fun a' ha' => hf a' (List.mem_cons_of_mem a ha')]
      cases p a <;> rfl

/-! ## Sets by keys -/

section Sets

variable {κ α : Type} [BEq κ] [Hashable κ] [BEq α] [Hashable α]

/-- Puts an element into the set of a key, which comes up with its first element. -/
def note (table : Std.HashMap κ (Std.HashSet α)) (pair : κ × α) : Std.HashMap κ (Std.HashSet α) :=
  table.insert pair.1 ((table.getD pair.1 ∅).insert pair.2)

variable [LawfulBEq κ] [LawfulHashable κ] [LawfulBEq α] [LawfulHashable α]
  {table : Std.HashMap κ (Std.HashSet α)} {pairs : List (κ × α)} {a : κ} {b : α}

theorem mem_getD_note {pair : κ × α} :
    b ∈ (note table pair).getD a ∅ ↔ b ∈ table.getD a ∅ ∨ pair = (a, b) := by
  obtain ⟨k, x⟩ := pair
  rw [note, Std.HashMap.getD_insert]
  by_cases hkey : k = a
  · subst hkey
    simp [or_comm]
  · simp [hkey]

theorem mem_getD_foldl_note :
    b ∈ (pairs.foldl note table).getD a ∅ ↔ b ∈ table.getD a ∅ ∨ (a, b) ∈ pairs := by
  induction pairs generalizing table with
  | nil => simp
  | cons pair rest ih => rw [List.foldl_cons, ih, mem_getD_note, List.mem_cons, or_assoc, eq_comm]

omit [LawfulBEq α] [LawfulHashable α] in
theorem mem_foldl_note : a ∈ pairs.foldl note table ↔ a ∈ table ∨ a ∈ pairs.map (·.1) := by
  induction pairs generalizing table with
  | nil => simp
  | cons pair rest ih =>
      rw [List.foldl_cons, ih, note, Std.HashMap.mem_insert, beq_iff_eq, List.map_cons, List.mem_cons, eq_comm,
        or_comm (a := a = pair.1), or_assoc]

omit [BEq κ] [Hashable κ] [LawfulBEq κ] [LawfulHashable κ] in
theorem nodup_toList (set : Std.HashSet α) : set.toList.Nodup :=
  Std.HashSet.distinct_toList.imp fun h => ne_of_beq_false h

omit [Hashable κ] [BEq α] [Hashable α] [LawfulHashable κ] [LawfulBEq α] [LawfulHashable α] in
theorem nodup_map_snd_filter (hpairs : pairs.Nodup) : ((pairs.filter (·.1 == a)).map (·.2)).Nodup := by
  refine (hpairs.filter _).map_on fun p hp q hq hsecond => ?_
  have hfirst : p.1 = a := by simpa using (List.mem_filter.mp hp).2
  have hother : q.1 = a := by simpa using (List.mem_filter.mp hq).2
  exact Prod.ext (hfirst.trans hother.symm) hsecond

/-- The set of a key has as many elements as there are different pairs with the key. -/
theorem size_getD_foldl_note (pairs : List (κ × α)) (a : κ) :
    ((pairs.foldl note ∅).getD a ∅).size = pairs.eraseDups.countP (·.1 == a) := by
  have hperm : ((pairs.foldl note ∅).getD a ∅).toList.Perm ((pairs.eraseDups.filter (·.1 == a)).map (·.2)) := by
    rw [List.perm_ext_iff_of_nodup (nodup_toList _) (nodup_map_snd_filter (nodup_eraseDups pairs))]
    intro b
    rw [Std.HashSet.mem_toList, mem_getD_foldl_note]
    simp
  rw [← Std.HashSet.length_toList, hperm.length_eq, List.length_map, List.countP_eq_length_filter]

end Sets

/-- A table that counts by keys has counted every element under its own key. -/
theorem getD_foldl_count {κ α : Type} [BEq κ] [Hashable κ] [LawfulBEq κ] [LawfulHashable κ] (keyOf : α → κ)
    (xs : List α) (table : Std.HashMap κ Nat) (a : κ) :
    (xs.foldl (fun table x => table.insert (keyOf x) (table.getD (keyOf x) 0 + 1)) table).getD a 0 =
      table.getD a 0 + xs.countP (keyOf · == a) := by
  induction xs generalizing table with
  | nil => rfl
  | cons x rest ih =>
      rw [List.foldl_cons, ih, Std.HashMap.getD_insert, List.countP_cons]
      by_cases hkey : keyOf x = a
      · subst hkey
        simp only [BEq.rfl, if_true]
        omega
      · simp [hkey]

/-! ## Sorting by keys -/

section Sorting

variable {α κ : Type} [LinearOrder κ] {keyOf : α → κ} {xs : List α} {keys : List κ}

/-- The elements of the least key are in front. -/
theorem filter_append_filter_of_pairwise {key : κ} (hxs : xs.Pairwise (keyOf · ≤ keyOf ·))
    (hleast : ∀ x ∈ xs, key ≤ keyOf x) :
    xs.filter (keyOf · == key) ++ xs.filter (keyOf · != key) = xs := by
  induction xs with
  | nil => rfl
  | cons x rest ih =>
      obtain ⟨hx, hrest⟩ := List.pairwise_cons.mp hxs
      obtain ⟨hle, hleast⟩ := List.forall_mem_cons.mp hleast
      by_cases hkey : keyOf x = key
      · simpa [hkey] using ih hrest hleast
      · have hlater : ∀ y ∈ x :: rest, keyOf y ≠ key := by
          intro y hy
          rcases List.mem_cons.mp hy with rfl | hy
          · exact hkey
          · exact ((lt_of_le_of_ne hle (Ne.symm hkey)).trans_le (hx y hy)).ne'
        rw [List.filter_eq_nil_iff.mpr (by simpa using hlater), List.nil_append,
          List.filter_eq_self.mpr (by simpa using hlater)]

/-- What is sorted by keys lists the elements of one key after those of another. -/
theorem flatMap_filter_of_pairwise (hxs : xs.Pairwise (keyOf · ≤ keyOf ·)) (hkeys : keys.Pairwise (· < ·))
    (hall : ∀ x ∈ xs, keyOf x ∈ keys) : (keys.flatMap fun key => xs.filter (keyOf · == key)) = xs := by
  induction keys generalizing xs with
  | nil => exact (List.eq_nil_iff_forall_not_mem.mpr fun x hx => List.not_mem_nil (hall x hx)).symm
  | cons key rest ih =>
      obtain ⟨hleast, hrest⟩ := List.pairwise_cons.mp hkeys
      have hothers : ∀ x ∈ xs.filter (keyOf · != key), keyOf x ∈ rest := by
        intro x hx
        obtain ⟨hmem, hne⟩ := List.mem_filter.mp hx
        exact (List.mem_cons.mp (hall x hmem)).resolve_left (bne_iff_ne.mp hne)
      have hsame : (rest.flatMap fun k => xs.filter (keyOf · == k)) =
          rest.flatMap fun k => (xs.filter (keyOf · != key)).filter (keyOf · == k) := by
        refine List.flatMap_congr fun k hk => ?_
        rw [List.filter_filter]
        refine List.filter_congr fun x _ => ?_
        by_cases hx : keyOf x = k
        · simp [hx, (hleast k hk).ne']
        · simp [hx]
      rw [List.flatMap_cons, hsame, ih (hxs.filter _) hrest hothers]
      refine filter_append_filter_of_pairwise hxs fun x hx => ?_
      rcases List.mem_cons.mp (hall x hx) with heq | hmem
      · exact heq.ge
      · exact (hleast _ hmem).le

theorem decide_le_trans (a b c : κ) (hab : decide (a ≤ b) = true) (hbc : decide (b ≤ c) = true) :
    decide (a ≤ c) = true :=
  decide_eq_true ((of_decide_eq_true hab).trans (of_decide_eq_true hbc))

theorem decide_le_total (a b : κ) : (decide (a ≤ b) || decide (b ≤ a)) = true := by
  simpa using le_total a b

theorem pairwise_mergeSort_by (keyOf : α → κ) (xs : List α) :
    (xs.mergeSort fun a b => decide (keyOf a ≤ keyOf b)).Pairwise (keyOf · ≤ keyOf ·) :=
  (List.pairwise_mergeSort (fun a b c => decide_le_trans (keyOf a) (keyOf b) (keyOf c))
    (fun a b => decide_le_total (keyOf a) (keyOf b)) xs).imp of_decide_eq_true

/-- Sorting by keys keeps the order of the elements of one key. -/
theorem filter_mergeSort (xs : List α) (key : κ) :
    (xs.mergeSort fun a b => decide (keyOf a ≤ keyOf b)).filter (keyOf · == key) = xs.filter (keyOf · == key) := by
  have hequal : (xs.filter (keyOf · == key)).Pairwise fun a b => decide (keyOf a ≤ keyOf b) = true := by
    refine List.pairwise_of_forall_mem_list fun a ha b hb => ?_
    have hfirst : keyOf a = key := by simpa using (List.mem_filter.mp ha).2
    have hsecond : keyOf b = key := by simpa using (List.mem_filter.mp hb).2
    rw [decide_eq_true_eq, hfirst, hsecond]
  have hsublist := (List.sublist_mergeSort (fun a b c => decide_le_trans (keyOf a) (keyOf b) (keyOf c))
    (fun a b => decide_le_total (keyOf a) (keyOf b)) hequal List.filter_sublist).filter (keyOf · == key)
  rw [List.filter_filter] at hsublist
  simp only [Bool.and_self] at hsublist
  exact (hsublist.eq_of_length ((List.mergeSort_perm xs _).filter _).length_eq.symm).symm

theorem mergeSort_eq_flatMap (hkeys : keys.Pairwise (· < ·)) (hall : ∀ x ∈ xs, keyOf x ∈ keys) :
    (xs.mergeSort fun a b => decide (keyOf a ≤ keyOf b)) = keys.flatMap fun key => xs.filter (keyOf · == key) := by
  rw [← flatMap_filter_of_pairwise (pairwise_mergeSort_by keyOf xs) hkeys fun x hx => hall x (List.mem_mergeSort.mp hx)]
  simp only [filter_mergeSort]

end Sorting

end CodeAtlas
