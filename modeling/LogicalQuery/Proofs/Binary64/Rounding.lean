import LogicalQuery.Binary64.Rounding
import Mathlib.Algebra.Ring.Nat
import Mathlib.Order.Monotone.Basic

/-!
# Rounding to the nearest magnitude
-/

namespace LogicalQuery.Binary64

/-! ### Magnitudes -/

/-- A magnitude counts multiples of a power of two: from `2 ^ 52` to `2 ^ 53` of them, or any number
up to `2 ^ 53` for the least power. -/
theorem units_add {k c : Nat} (hc : c ≤ 2 ^ 53) (hk : k = 0 ∨ 2 ^ 52 ≤ c) :
    units (k * 2 ^ 52 + c) = c * 2 ^ k := by
  have hlow : c < 2 ^ 52 ∨ (2 ^ 52 ≤ c ∧ c < 2 ^ 53) ∨ c = 2 ^ 53 := by omega
  simp only [units, Nat.pow_eq]
  rcases hlow with hlow | ⟨hlow, hhigh⟩ | rfl
  · obtain rfl : k = 0 := by omega
    rw [if_pos (by omega)]
    omega
  · rw [if_neg (by omega), show (k * 2 ^ 52 + c) % 2 ^ 52 = c - 2 ^ 52 by omega,
      show (k * 2 ^ 52 + c) / 2 ^ 52 - 1 = k by omega, Nat.add_sub_cancel' hlow]
  · rw [if_neg (by omega), show (k * 2 ^ 52 + 2 ^ 53) % 2 ^ 52 = 0 by omega,
      show (k * 2 ^ 52 + 2 ^ 53) / 2 ^ 52 - 1 = k + 1 by omega]
    omega

/-- Every magnitude counts multiples of a power of two. -/
theorem exists_eq_add (m : Nat) :
    ∃ k c, m = k * 2 ^ 52 + c ∧ c < 2 ^ 53 ∧ (k = 0 ∨ 2 ^ 52 ≤ c) :=
  ⟨m / 2 ^ 52 - 1, m - (m / 2 ^ 52 - 1) * 2 ^ 52, by omega, by omega, by omega⟩

theorem units_lt_succ (m : Nat) : units m < units (m + 1) := by
  obtain ⟨k, c, rfl, hc, hk⟩ := exists_eq_add m
  rw [Nat.add_assoc, units_add (Nat.le_of_lt hc) hk, units_add hc (by omega)]
  exact Nat.mul_lt_mul_of_pos_right (Nat.lt_succ_self c) (Nat.two_pow_pos k)

/-- Greater magnitudes have greater values. -/
theorem units_strictMono : StrictMono units := strictMono_nat_of_lt_succ units_lt_succ

/-! ### Rounding to an integer -/

variable {a d n : Nat}

theorem roundHalfEven_cases (a d : Nat) :
    (roundHalfEven a d = a / d ∧ 2 * (a % d) ≤ d ∧ (2 * (a % d) = d → a / d % 2 = 0)) ∨
      (roundHalfEven a d = a / d + 1 ∧ d ≤ 2 * (a % d) ∧ (2 * (a % d) = d → a / d % 2 = 1)) := by
  unfold roundHalfEven
  dsimp only
  split
  next => exact .inl ⟨rfl, by omega, by omega⟩
  next =>
    split
    next => exact .inr ⟨rfl, by omega, by omega⟩
    next =>
      split
      next => exact .inl ⟨rfl, by omega, by omega⟩
      next => exact .inr ⟨rfl, by omega, by omega⟩

/-- The integer is within one half of the quotient, and closer if it is odd. -/
theorem roundHalfEven_spec (hd : 0 < d) (a : Nat) :
    2 * (roundHalfEven a d * d) ≤ 2 * a + d ∧ 2 * a ≤ 2 * (roundHalfEven a d * d) + d ∧
      (roundHalfEven a d % 2 = 1 →
        2 * (roundHalfEven a d * d) < 2 * a + d ∧ 2 * a < 2 * (roundHalfEven a d * d) + d) := by
  have hdiv : a / d * d + a % d = a := Nat.div_add_mod' a d
  have hmod := Nat.mod_lt a hd
  rcases roundHalfEven_cases a d with ⟨heq, hle, heven⟩ | ⟨heq, hle, hodd⟩
  · rw [heq]
    generalize a / d * d = p at *
    omega
  · rw [heq, Nat.add_one_mul (a / d) d]
    generalize a / d * d = p at *
    omega

theorem roundHalfEven_le (hd : 0 < d) (h : a ≤ n * d) : roundHalfEven a d ≤ n := by
  obtain ⟨hle, -, -⟩ := roundHalfEven_spec hd a
  refine Nat.le_of_not_lt fun hlt ↦ ?_
  have := Nat.mul_le_mul_right d (show n + 1 ≤ roundHalfEven a d from hlt)
  rw [Nat.add_one_mul n d] at this
  omega

theorem le_roundHalfEven (hd : 0 < d) (h : n * d ≤ a) : n ≤ roundHalfEven a d := by
  obtain ⟨-, hle, -⟩ := roundHalfEven_spec hd a
  refine Nat.le_of_not_lt fun hlt ↦ ?_
  have := Nat.mul_le_mul_right d (show roundHalfEven a d + 1 ≤ n from hlt)
  rw [Nat.add_one_mul (roundHalfEven a d) d] at this
  omega

/-! ### Rounding to a magnitude -/

/-- The magnitude `m` is the nearest to `a / d` units: the quotient lies between the middle of the
magnitude below and `m` and the middle of `m` and the magnitude above. A middle belongs to the even
one of its two neighbours. -/
structure IsNearest (m a d : Nat) : Prop where
  lower : (units (m - 1) + units m) * d ≤ 2 * a
  upper : 2 * a ≤ (units m + units (m + 1)) * d
  lower_of_odd : m % 2 = 1 → (units (m - 1) + units m) * d < 2 * a
  upper_of_odd : m % 2 = 1 → 2 * a < (units m + units (m + 1)) * d

namespace IsNearest

variable {m m' a' d' : Nat}

/-- A greater quotient has no smaller nearest magnitude. -/
theorem le_of_le (hd : 0 < d) (h : IsNearest m a d) (h' : IsNearest m' a' d) (hle : a ≤ a') :
    m ≤ m' := by
  refine Nat.le_of_not_lt fun hlt ↦ ?_
  have hsucc : m' + 1 ≤ m := hlt
  have hlower : units m' ≤ units (m - 1) := units_strictMono.monotone (by omega)
  have hupper : units (m' + 1) ≤ units m := units_strictMono.monotone hsucc
  have hends := Nat.mul_le_mul_right d (Nat.add_le_add hlower hupper)
  have h₁ := h'.upper
  have h₂ := h.lower
  rcases Nat.lt_or_eq_of_le hsucc with hlt | heq
  · have : units (m' + 1) < units m := units_strictMono hlt
    have := Nat.mul_lt_mul_of_pos_right (Nat.add_lt_add_of_le_of_lt hlower this) hd
    omega
  · -- Two neighbours can only meet in their middle, which belongs to one of them.
    have h₃ := h'.upper_of_odd
    have h₄ := h.lower_of_odd
    omega

/-- Only one magnitude is the nearest. -/
theorem eq (hd : 0 < d) (h : IsNearest m a d) (h' : IsNearest m' a d) : m = m' :=
  Nat.le_antisymm (h.le_of_le hd h' le_rfl) (h'.le_of_le hd h le_rfl)

/-- Being nearest depends on the quotient alone. -/
theorem of_mul_eq (hd : 0 < d) (hd' : 0 < d') (h : IsNearest m a d) (heq : a * d' = a' * d) :
    IsNearest m a' d' := by
  have hleft (n : Nat) : n * d * d' = n * d' * d := Nat.mul_right_comm ..
  have hright : 2 * a * d' = 2 * a' * d := by rw [Nat.mul_assoc, heq, Nat.mul_assoc]
  have hlow (n : Nat) : n * d ≤ 2 * a ↔ n * d' ≤ 2 * a' := by
    rw [← Nat.mul_le_mul_right_iff hd', hleft, hright, Nat.mul_le_mul_right_iff hd]
  have hhigh (n : Nat) : 2 * a ≤ n * d ↔ 2 * a' ≤ n * d' := by
    rw [← Nat.mul_le_mul_right_iff hd', hleft, hright, Nat.mul_le_mul_right_iff hd]
  exact ⟨(hlow _).1 h.lower, (hhigh _).1 h.upper,
    fun hm ↦ Nat.not_le.1 fun hle ↦ Nat.not_le.2 (h.lower_of_odd hm) ((hhigh _).2 hle),
    fun hm ↦ Nat.not_le.1 fun hle ↦ Nat.not_le.2 (h.upper_of_odd hm) ((hlow _).2 hle)⟩

end IsNearest

/-- The power of two in whose multiples a quotient is counted leaves at most 53 binary digits to the
count, and no fewer unless it is the least power. -/
theorem quotient_bounds (hd : 0 < d) (a : Nat) :
    a < 2 ^ 53 * (d * 2 ^ ((a / d).log2 - 52)) ∧
      ((a / d).log2 - 52 = 0 ∨ 2 ^ 52 * (d * 2 ^ ((a / d).log2 - 52)) ≤ a) := by
  have hcomm (j k : Nat) : 2 ^ j * (d * 2 ^ k) = 2 ^ (j + k) * d := by
    rw [Nat.pow_add, Nat.mul_assoc, Nat.mul_comm d]
  rw [hcomm, hcomm]
  constructor
  · have hlt : a / d < 2 ^ (53 + ((a / d).log2 - 52)) :=
      Nat.lt_of_lt_of_le Nat.lt_log2_self (Nat.pow_le_pow_right (by decide) (by omega))
    exact (Nat.div_lt_iff_lt_mul hd).1 hlt
  · by_cases hk : (a / d).log2 - 52 = 0
    · exact .inl hk
    · have hne : a / d ≠ 0 := by
        intro hzero
        rw [hzero] at hk
        exact hk rfl
      rw [show 52 + ((a / d).log2 - 52) = (a / d).log2 by omega]
      exact .inr ((Nat.le_div_iff_mul_le hd).1 (Nat.log2_self_le hne))

/-- The next magnitude is at least one multiple of the power further. -/
theorem units_add_le {k c : Nat} (hc : c ≤ 2 ^ 53) (hk : k = 0 ∨ 2 ^ 52 ≤ c) :
    (c + 1) * 2 ^ k ≤ units (k * 2 ^ 52 + c + 1) := by
  rcases Nat.lt_or_eq_of_le hc with hlt | rfl
  · rw [Nat.add_assoc, units_add hlt (by omega)]
  · -- One step beyond `2 ^ 53` multiples, magnitudes count multiples of the next power.
    rw [show k * 2 ^ 52 + 2 ^ 53 + 1 = (k + 1) * 2 ^ 52 + (2 ^ 52 + 1) by omega,
      units_add (by decide) (.inr (by decide)), Nat.pow_succ]
    omega

/-- The magnitude before it is limited to infinity is the nearest. -/
theorem isNearest_add (hd : 0 < d) (a : Nat) :
    IsNearest (((a / d).log2 - 52) * 2 ^ 52 +
      roundHalfEven a (d * 2 ^ ((a / d).log2 - 52))) a d := by
  obtain ⟨hhigh, hlow⟩ := quotient_bounds hd a
  generalize (a / d).log2 - 52 = k at hhigh hlow ⊢
  have hD : 0 < d * 2 ^ k := Nat.mul_pos hd (Nat.two_pow_pos k)
  have hc := roundHalfEven_le hD (Nat.le_of_lt hhigh)
  have hk := hlow.imp_right (le_roundHalfEven hD)
  obtain ⟨hle, hge, hodd⟩ := roundHalfEven_spec hD a
  generalize roundHalfEven a (d * 2 ^ k) = c at *
  have hcount (c : Nat) : c * 2 ^ k * d = c * (d * 2 ^ k) := by
    rw [Nat.mul_assoc, Nat.mul_comm d]
  have hunits : units (k * 2 ^ 52 + c) * d = c * (d * 2 ^ k) := by
    rw [units_add hc hk, hcount]
  have hupper : c * (d * 2 ^ k) + d * 2 ^ k ≤ units (k * 2 ^ 52 + c + 1) * d := by
    have := Nat.mul_le_mul_right d (units_add_le hc hk)
    rwa [hcount, Nat.add_one_mul c] at this
  -- Below, the step is as great, unless the count is the least one of its power; a quotient that is
  -- counted so is not below the magnitude at all.
  have hlower : units (k * 2 ^ 52 + c - 1) * d + d * 2 ^ k ≤ c * (d * 2 ^ k) ∨
      c % 2 = 0 ∧ units (k * 2 ^ 52 + c - 1) * d ≤ c * (d * 2 ^ k) ∧ c * (d * 2 ^ k) ≤ a := by
    by_cases hleast : c = 0 ∨ k ≠ 0 ∧ c = 2 ^ 52
    · have hpred : units (k * 2 ^ 52 + c - 1) * d ≤ c * (d * 2 ^ k) := by
        rw [← hunits]
        exact Nat.mul_le_mul_right d (units_strictMono.monotone (Nat.sub_le _ 1))
      refine .inr ⟨by omega, hpred, ?_⟩
      rcases hleast with rfl | ⟨hne, rfl⟩
      · rw [Nat.zero_mul]
        exact Nat.zero_le a
      · exact hlow.resolve_left hne
    · have hpred : k * 2 ^ 52 + c - 1 = k * 2 ^ 52 + (c - 1) := by omega
      refine .inl (Nat.le_of_eq ?_)
      rw [hpred, units_add (by omega) (by omega), hcount, ← Nat.add_one_mul,
        Nat.sub_add_cancel (by omega)]
  have hparity : (k * 2 ^ 52 + c) % 2 = c % 2 := by omega
  constructor <;> rw [Nat.add_mul, hunits] <;> generalize c * (d * 2 ^ k) = x at * <;> omega

/-- **The magnitude that is chosen is the nearest, limited to infinity.** -/
theorem exists_isNearest (hd : 0 < d) (a : Nat) :
    ∃ m, IsNearest m (a * Nat.pow 2 1074) d ∧ nearestMagnitude a d = min infinityMagnitude m :=
  ⟨_, isNearest_add hd _, rfl⟩

theorem IsNearest.nearestMagnitude_eq {m : Nat} (hd : 0 < d)
    (h : IsNearest m (a * Nat.pow 2 1074) d) :
    nearestMagnitude a d = min infinityMagnitude m := by
  obtain ⟨m', h', heq⟩ := exists_isNearest hd a
  rw [heq, h'.eq hd h]

theorem nearestMagnitude_mono {a' : Nat} (hd : 0 < d) (hle : a ≤ a') :
    nearestMagnitude a d ≤ nearestMagnitude a' d := by
  obtain ⟨m, h, heq⟩ := exists_isNearest hd a
  obtain ⟨m', h', heq'⟩ := exists_isNearest hd a'
  have hnearest := h.le_of_le hd h' (Nat.mul_le_mul_right _ hle)
  rw [heq, heq']
  omega

/-- The value of a magnitude is nearest to this magnitude. -/
theorem isNearest_units (m d : Nat) (hd : 0 < d) : IsNearest m (units m * d) d := by
  have hbelow : units (m - 1) ≤ units m := units_strictMono.monotone (Nat.sub_le m 1)
  have habove : units m < units (m + 1) := units_lt_succ m
  have hscale : 2 * (units m * d) = (units m + units m) * d := by
    rw [← Nat.mul_assoc, Nat.two_mul]
  constructor <;> rw [hscale]
  · exact Nat.mul_le_mul_right d (by omega)
  · exact Nat.mul_le_mul_right d (by omega)
  · intro hodd
    have hbelow : units (m - 1) < units m := units_strictMono (by omega)
    exact Nat.mul_lt_mul_of_pos_right (by omega) hd
  · exact fun _ ↦ Nat.mul_lt_mul_of_pos_right (by omega) hd

/-! ### Rounding to a number -/

/-- The number nearest to a quotient depends on the quotient alone. -/
theorem ofRatio_congr {a' d' : Nat} (negative : Bool) (hd : 0 < d) (hd' : 0 < d')
    (heq : a * d' = a' * d) : ofRatio negative a d = ofRatio negative a' d' := by
  obtain ⟨m, h, hm⟩ := exists_isNearest hd a
  have heq' : a * Nat.pow 2 1074 * d' = a' * Nat.pow 2 1074 * d := by
    rw [Nat.mul_right_comm, heq, Nat.mul_right_comm]
  exact Binary64.ext rfl (hm.trans ((h.of_mul_eq hd hd' heq').nearestMagnitude_eq hd').symm)

theorem IsNearest.ofRatio_eq {negative : Bool} {x : Binary64} (hd : 0 < d)
    (h : IsNearest x.magnitude (a * Nat.pow 2 1074) d) (hsign : negative = x.negative)
    (hx : x.magnitude ≤ infinityMagnitude) : ofRatio negative a d = x :=
  Binary64.ext hsign ((h.nearestMagnitude_eq hd).trans (Nat.min_eq_right hx))

/-- A quotient of at most half a unit is rounded to zero. -/
theorem ofRatio_eq_zero (negative : Bool) (hd : 0 < d) (h : 2 * (a * Nat.pow 2 1074) ≤ d) :
    ofRatio negative a d = zero negative := by
  have hzero : IsNearest 0 (a * Nat.pow 2 1074) d := by
    have hlower : (units (0 - 1) + units 0) * d = 0 := Nat.zero_mul d
    have hupper : (units 0 + units (0 + 1)) * d = d := Nat.one_mul d
    generalize a * Nat.pow 2 1074 = scaled at h
    exact ⟨by omega, by omega, nofun, nofun⟩
  exact hzero.ofRatio_eq (x := zero negative) hd rfl (Nat.zero_le _)

/-- A quotient of at least the value at which infinity would stand is rounded to infinity. -/
theorem ofRatio_eq_infinity (negative : Bool) (hd : 0 < d)
    (h : units infinityMagnitude * d ≤ a * Nat.pow 2 1074) :
    ofRatio negative a d = infinity negative := by
  obtain ⟨m, hm, heq⟩ := exists_isNearest hd a
  have hle : infinityMagnitude ≤ m := by
    refine Nat.le_of_not_lt fun hlt ↦ ?_
    have hends : units m + units (m + 1) < 2 * units infinityMagnitude := by
      have hbelow := units_strictMono hlt
      have hnext := units_strictMono.monotone (show m + 1 ≤ infinityMagnitude from hlt)
      omega
    have hupper := hm.upper
    have hmul := Nat.mul_lt_mul_of_pos_right hends hd
    rw [Nat.mul_assoc] at hmul
    generalize a * Nat.pow 2 1074 = scaled at h hupper
    omega
  exact Binary64.ext rfl (heq.trans (Nat.min_eq_left hle))

end LogicalQuery.Binary64
