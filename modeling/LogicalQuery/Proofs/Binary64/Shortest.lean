import LogicalQuery.Binary64.Shortest
import LogicalQuery.Proofs.Binary64.Rounding

/-!
# The shortest decimal reads back

`Decimal.nearest` is the number nearest to a decimal: what a reader of the decimal has to return. It
depends on the decimal's value alone. Every decimal that the search for the shortest one may return
passed the test that it lies in the interval around the magnitude, and in that interval the nearest
number is the one of this magnitude.
-/

namespace LogicalQuery

/-- The number of the given sign nearest to a decimal. -/
def Decimal.nearest (negative : Bool) (d : Decimal) : Binary64 :=
  .ofRatio negative (d.digits * Nat.pow 10 d.exponent.toNat) (Nat.pow 10 (-d.exponent).toNat)

theorem Decimal.nearest_sub (negative : Bool) (n k c : Nat) :
    nearest negative ⟨n, k - c⟩ = .ofRatio negative (n * 10 ^ k) (Nat.pow 10 c) := by
  refine Binary64.ofRatio_congr negative (Nat.pow_pos (by decide)) (Nat.pow_pos (by decide)) ?_
  simp only [Nat.pow_eq, Nat.mul_assoc, ← Nat.pow_add]
  congr 2
  omega

/-- Zeros behind the last digit can be traded for its exponent. -/
theorem Decimal.nearest_mul_pow (negative : Bool) (n k : Nat) (e : Int) :
    nearest negative ⟨n * 10 ^ k, e⟩ = nearest negative ⟨n, e + k⟩ := by
  have hexponent : e + k = (k + e.toNat : Nat) - ((-e).toNat : Nat) := by omega
  rw [hexponent, nearest_sub, Nat.pow_add, ← Nat.mul_assoc]
  rfl

namespace Binary64

variable {m n j : Nat}

/-- The ends belong to the interval of an even magnitude only. -/
theorem readsBack_iff : readsBack m n = true ↔
    lowerEnd m ≤ n ∧ n ≤ upperEnd m ∧ (m % 2 = 1 → lowerEnd m < n ∧ n < upperEnd m) := by
  rw [readsBack]
  split <;> simp only [Bool.and_eq_true, decide_eq_true_eq] <;> omega

/-- In the interval of a magnitude, this magnitude is the nearest. -/
theorem IsNearest.of_readsBack (h : readsBack m n = true) : IsNearest m n (2 * halfUnit) := by
  obtain ⟨hlower, hupper, hodd⟩ := readsBack_iff.1 h
  have hscale (u : Nat) : u * (2 * halfUnit) = 2 * (u * halfUnit) := Nat.mul_left_comm ..
  rw [lowerEnd, upperEnd] at hodd
  constructor <;> rw [hscale]
  · exact Nat.mul_le_mul_left 2 hlower
  · exact Nat.mul_le_mul_left 2 hupper
  · exact fun hm ↦ Nat.mul_lt_mul_of_pos_left (hodd hm).1 Nat.two_pos
  · exact fun hm ↦ Nat.mul_lt_mul_of_pos_left (hodd hm).2 Nat.two_pos

/-- The value of a magnitude lies inside its interval. -/
theorem readsBack_exactDigits (hm : 0 < m) : readsBack m (exactDigits m) = true := by
  have hhalf : 0 < halfUnit := by decide +kernel
  have hbelow : units (m - 1) < units m := units_strictMono (by omega)
  have habove : units m < units (m + 1) := units_lt_succ m
  have hlower : lowerEnd m < exactDigits m := Nat.mul_lt_mul_of_pos_right (by omega) hhalf
  have hupper : exactDigits m < upperEnd m := Nat.mul_lt_mul_of_pos_right (by omega) hhalf
  exact readsBack_iff.2 ⟨hlower.le, hupper.le, fun _ ↦ ⟨hlower, hupper⟩⟩

theorem readsBack_of_onGrid? (h : onGrid? m j = some n) :
    readsBack m (n * Nat.pow 10 j) = true := by
  simp only [onGrid?] at h
  split at h
  next habove =>
    cases h
    exact (Bool.and_eq_true _ _ ▸ habove).1
  next =>
    split at h
    next hbelow =>
      cases h
      exact hbelow
    next => cases h

/-- Whatever grid the search starts from, it returns a decimal that rounds to the magnitude. -/
theorem shortestFrom_spec (hm : 0 < m) (j : Nat) :
    ∃ n k : Nat, shortestFrom m j = ⟨n, k - (1075 : Nat)⟩ ∧
      readsBack m (n * Nat.pow 10 k) = true := by
  induction j with
  | zero => exact ⟨exactDigits m, 0, rfl, by simpa using readsBack_exactDigits hm⟩
  | succ j ih =>
    rw [shortestFrom]
    split
    next n h => exact ⟨n, j + 1, rfl, readsBack_of_onGrid? h⟩
    next => exact ih

/-- **The shortest decimal of a finite number other than zero is nearest to that number.** -/
theorem nearest_shortest (x : Binary64) (hzero : 0 < x.magnitude)
    (hfinite : x.magnitude < infinityMagnitude) :
    (shortest x.magnitude).nearest x.negative = x := by
  obtain ⟨n, k, hshortest, hreads⟩ := shortestFrom_spec hzero
    (((upperEnd x.magnitude).log2 + 1) * 30103 / 100000 + 1)
  -- The finest grid counts `10 ^ -1075`, of which `2 * halfUnit` make one unit.
  have hpow : Nat.pow 2 1074 * (2 * halfUnit) = Nat.pow 10 (1075 : Nat) := by decide +kernel
  have hscale (c : Nat) : c * Nat.pow 10 (1075 : Nat) = c * Nat.pow 2 1074 * (2 * halfUnit) := by
    rw [Nat.mul_assoc c, hpow]
  have hunit : 0 < 2 * halfUnit := by decide +kernel
  have hden : 0 < Nat.pow 10 (1075 : Nat) := by decide +kernel
  have hnearest : IsNearest x.magnitude (n * 10 ^ k * Nat.pow 2 1074) (Nat.pow 10 (1075 : Nat)) :=
    (IsNearest.of_readsBack hreads).of_mul_eq hunit hden (hscale _)
  have hround : ofRatio x.negative (n * 10 ^ k) (Nat.pow 10 (1075 : Nat)) = x :=
    hnearest.ofRatio_eq hden rfl hfinite.le
  rw [shortest, hshortest, Decimal.nearest_sub]
  exact hround

end Binary64

end LogicalQuery
