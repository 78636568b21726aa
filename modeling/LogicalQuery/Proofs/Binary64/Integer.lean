import LogicalQuery.Proofs.Binary64.Rounding
import Mathlib.Algebra.Ring.Int.Defs

/-!
# Integers among the floating-point numbers

Every integer of at most 53 binary digits is the value of a magnitude, so that it becomes the number
with its value, and truncating that number gives it back (`truncate_ofInt`). So different integers
become different numbers (`ofInt_inj`). Beyond 53 digits integers are rounded, and two of them may
become the same number, but never change places (`rank_ofInt_le`).
-/

namespace LogicalQuery.Binary64

variable {c m : Nat} {i j : Int}

/-! ### Values of magnitudes -/

/-- A positive number up to `2 ^ 53` reaches 53 binary digits when it is doubled often enough. -/
theorem exists_mul_two_pow (hpos : 0 < c) (hc : c ≤ 2 ^ 53) :
    ∃ k ≤ 52, 2 ^ 52 ≤ c * 2 ^ k ∧ c * 2 ^ k ≤ 2 ^ 53 := by
  have hlow : 2 ^ c.log2 ≤ c := Nat.log2_self_le hpos.ne'
  have hhigh : c < 2 ^ (c.log2 + 1) := Nat.lt_log2_self
  generalize c.log2 = l at hlow hhigh
  refine ⟨52 - l, Nat.sub_le 52 l, ?_, ?_⟩
  · calc 2 ^ 52 ≤ 2 ^ (l + (52 - l)) := Nat.pow_le_pow_right Nat.two_pos (by omega)
      _ = 2 ^ l * 2 ^ (52 - l) := Nat.pow_add ..
      _ ≤ c * 2 ^ (52 - l) := Nat.mul_le_mul_right _ hlow
  · rcases Nat.lt_or_ge 52 l with hl | hl
    · rwa [Nat.sub_eq_zero_of_le hl.le, Nat.pow_zero, Nat.mul_one]
    · calc c * 2 ^ (52 - l) ≤ 2 ^ (l + 1) * 2 ^ (52 - l) := Nat.mul_le_mul_right _ hhigh.le
        _ = 2 ^ 53 := by rw [← Nat.pow_add, show l + 1 + (52 - l) = 53 by omega]

/-- A number of at most 53 binary digits is the value of a finite magnitude. -/
theorem exists_units_eq (hc : c ≤ 2 ^ 53) :
    ∃ m ≤ infinityMagnitude, units m = c * Nat.pow 2 1074 := by
  rcases Nat.eq_zero_or_pos c with rfl | hpos
  · refine ⟨0, Nat.zero_le _, ?_⟩
    generalize Nat.pow 2 1074 = p
    exact (Nat.zero_mul p).symm
  · obtain ⟨k, hk, hlow, hhigh⟩ := exists_mul_two_pow hpos hc
    refine ⟨(1074 - k) * 2 ^ 52 + c * 2 ^ k, ?_, ?_⟩
    · simp only [infinityMagnitude, Nat.pow_eq]
      omega
    · rw [units_add hhigh (.inr hlow), Nat.mul_assoc, ← Nat.pow_add]
      congr 2
      omega

/-! ### Exact integers -/

/-- An integer of 32 bits has at most 53 binary digits. -/
theorem natAbs_toInt_le (n : Int32) : n.toInt.natAbs ≤ 2 ^ 53 := by
  have hlow := n.le_toInt
  have hhigh := n.toInt_lt
  omega

theorem isNaN_ofInt (i : Int) : (ofInt i).isNaN = false :=
  decide_eq_false (Nat.not_lt.2 (Nat.min_le_left _ _))

/-- An integer of at most 53 binary digits becomes the number with its value. -/
theorem units_magnitude_ofInt (hi : i.natAbs ≤ 2 ^ 53) :
    units (ofInt i).magnitude = i.natAbs * Nat.pow 2 1074 := by
  obtain ⟨m, hm, hunits⟩ := exists_units_eq hi
  have hnearest : IsNearest m (i.natAbs * Nat.pow 2 1074) 1 := by
    rw [← hunits, ← Nat.mul_one (units m)]
    exact isNearest_units m 1 Nat.one_pos
  have hmagnitude : (ofInt i).magnitude = m :=
    (hnearest.nearestMagnitude_eq Nat.one_pos).trans (Nat.min_eq_right hm)
  rw [hmagnitude, hunits]

/-- **An integer of at most 53 binary digits comes back from its number.** -/
theorem truncate_ofInt (hi : i.natAbs ≤ 2 ^ 53) : (ofInt i).truncate = i := by
  have hpos : 0 < Nat.pow 2 1074 := by decide +kernel
  have hsign : (ofInt i).negative = decide (i < 0) := rfl
  rw [truncate, isNaN_ofInt, if_neg Bool.false_ne_true, units_magnitude_ofInt hi,
    Nat.mul_div_cancel _ hpos, hsign]
  simp only [decide_eq_true_eq]
  split <;> omega

/-- Different integers of at most 53 binary digits become different numbers. -/
theorem ofInt_inj (hi : i.natAbs ≤ 2 ^ 53) (hj : j.natAbs ≤ 2 ^ 53) : ofInt i = ofInt j ↔ i = j := by
  refine ⟨fun h ↦ ?_, congrArg ofInt⟩
  rw [← truncate_ofInt hi, h, truncate_ofInt hj]

/-! ### The order of integers -/

theorem magnitude_ofInt_mono (h : i.natAbs ≤ j.natAbs) :
    (ofInt i).magnitude ≤ (ofInt j).magnitude :=
  nearestMagnitude_mono Nat.one_pos h

theorem rank_ofInt_of_neg (hi : i < 0) : (ofInt i).rank = -((ofInt i).magnitude : Int) - 1 :=
  if_pos (decide_eq_true hi)

theorem rank_ofInt_of_nonneg (hi : 0 ≤ i) : (ofInt i).rank = (ofInt i).magnitude := by
  have hsign : (ofInt i).negative = false := decide_eq_false (Int.not_lt.2 hi)
  rw [rank, hsign, if_neg Bool.false_ne_true]

/-- **Integers do not change places when they become numbers.** -/
theorem rank_ofInt_le (h : i ≤ j) : (ofInt i).rank ≤ (ofInt j).rank := by
  rcases lt_or_ge i 0 with hi | hi
  · rw [rank_ofInt_of_neg hi]
    rcases lt_or_ge j 0 with hj | hj
    · rw [rank_ofInt_of_neg hj]
      have := magnitude_ofInt_mono (i := j) (j := i) (by omega)
      omega
    · rw [rank_ofInt_of_nonneg hj]
      omega
  · rw [rank_ofInt_of_nonneg hi, rank_ofInt_of_nonneg (hi.trans h)]
    have := magnitude_ofInt_mono (i := i) (j := j) (by omega)
    omega

theorem compareTotal_ofInt_ne_gt (h : i ≤ j) : (ofInt i).compareTotal (ofInt j) ≠ .gt := by
  rw [compareTotal, Int.compare_ne_gt]
  exact rank_ofInt_le h

end LogicalQuery.Binary64
