import CodeAtlas.Number
import Mathlib.Algebra.BigOperators.Group.List.Basic
import Mathlib.Algebra.Order.Ring.Int

/-!
# Numbers of 64 bits

A number stays as it is if 64 bits hold it with its sign, and turns negative right beyond them. What has been
wrapped may be wrapped again after any sum. A number is written in decimal digits, a greater one in no fewer.
-/

namespace CodeAtlas

theorem wrap64_eq_self {n : Int} (hpos : 0 ≤ n) (hsmall : n < signedLimit) : wrap64 n = n := by
  unfold signedLimit at hsmall
  exact Int.bmod_eq_of_le (by unfold unsignedLimit; omega) (by unfold unsignedLimit; omega)

theorem wrap64_neg {n : Int} (hlarge : signedLimit ≤ n) (hlt : n < unsignedLimit) : wrap64 n < 0 := by
  unfold signedLimit at hlarge
  unfold wrap64
  unfold unsignedLimit at *
  rw [Int.bmod_def]
  split <;> omega

theorem wrap64_wrap64_add (m n : Int) : wrap64 (wrap64 m + n) = wrap64 (m + n) := Int.bmod_add_bmod

theorem wrap64_sum_wrap64 (numbers : List Int) :
    wrap64 (numbers.map wrap64).sum = wrap64 numbers.sum := by
  induction numbers with
  | nil => rfl
  | cons n rest ih =>
      unfold wrap64 at ih ⊢
      rw [List.map_cons, List.sum_cons, List.sum_cons, Int.bmod_add_bmod, ← Int.add_bmod_bmod, ih,
        Int.add_bmod_bmod]

/-! ## Digits -/

theorem toList_toString {n : Int} (hn : 0 ≤ n) : (toString n).toList = Nat.toDigits 10 n.toNat := by
  rw [Int.toString_eq_repr, Int.repr_eq_if, if_pos hn, Nat.toList_repr]

theorem isDigit_of_mem_toString {n : Int} (hn : 0 ≤ n) {c : Char} (hc : c ∈ (toString n).toList) :
    c.isDigit = true := by
  rw [toList_toString hn] at hc
  exact Nat.isDigit_of_mem_toDigits (by decide) (by decide) hc

theorem length_toString_le {a b : Int} (ha : 0 ≤ a) (hab : a ≤ b) : (toString a).length ≤ (toString b).length := by
  rw [← String.length_toList, ← String.length_toList, toList_toString ha, toList_toString (Int.le_trans ha hab),
    Nat.length_toDigits_le_iff (by decide) Nat.length_toDigits_pos]
  refine Nat.lt_of_le_of_lt (Int.toNat_le_toNat hab) ?_
  exact (Nat.length_toDigits_le_iff (by decide) Nat.length_toDigits_pos).mp (Nat.le_refl _)

end CodeAtlas
