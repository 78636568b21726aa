/-!
# Binary floating-point numbers

A `Binary64` is a sign and a magnitude below `2 ^ 63`, the 64-bit interchange format of binary
floating-point numbers. Magnitudes count the representable absolute values upwards from zero:
the finite ones first, then infinity, then the NaNs, which keep their payload. A finite magnitude
`m` denotes `units m` times `2 ^ -1074`, the least positive number, so that every finite value is
an exact natural number of these units. Equality is equality of bit patterns, and
`compareTotal` is the total order of the format.
-/

namespace LogicalQuery

/-- A binary floating-point number of 64 bits. -/
@[ext] structure Binary64 where
  /-- Whether the sign bit is set. -/
  negative : Bool
  /-- The remaining 63 bits, read as a natural number. -/
  magnitude : Nat
  /-- The magnitude takes 63 bits. -/
  magnitude_lt : magnitude < Nat.pow 2 63
deriving DecidableEq

namespace Binary64

/-- The magnitude of the infinities. Greater magnitudes are NaNs. -/
def infinityMagnitude : Nat := 2047 * Nat.pow 2 52

/-- The number with the given bit pattern. -/
def ofBits (b : UInt64) : Binary64 where
  negative := decide (Nat.pow 2 63 ≤ b.toNat)
  magnitude := b.toNat % Nat.pow 2 63
  magnitude_lt := Nat.mod_lt _ (by decide)

/-- The bit pattern of a number. -/
def bits (x : Binary64) : UInt64 :=
  UInt64.ofNat ((if x.negative then Nat.pow 2 63 else 0) + x.magnitude)

/-- Zero with the given sign. -/
def zero (negative : Bool) : Binary64 := ⟨negative, 0, by decide⟩

/-- Infinity with the given sign. -/
def infinity (negative : Bool) : Binary64 := ⟨negative, infinityMagnitude, by decide⟩

/-- The quiet NaN with an empty payload and the given sign. -/
def nan (negative : Bool) : Binary64 := ⟨negative, infinityMagnitude + Nat.pow 2 51, by decide⟩

/-- Whether the bit pattern stands for no number. -/
def isNaN (x : Binary64) : Bool := infinityMagnitude < x.magnitude

/-- Whether the number is infinite. -/
def isInfinite (x : Binary64) : Bool := x.magnitude == infinityMagnitude

/-- Whether the number is zero, of either sign. -/
def isZero (x : Binary64) : Bool := x.magnitude == 0

/-- The absolute value of a finite magnitude, in units of `2 ^ -1074`. Beyond the finite
magnitudes the count goes on as if the exponent had no bound. -/
def units (m : Nat) : Nat :=
  if m < Nat.pow 2 52 then m
  else (Nat.pow 2 52 + m % Nat.pow 2 52) * Nat.pow 2 (m / Nat.pow 2 52 - 1)

/-! ### Bit patterns -/

@[simp] theorem toNat_bits (x : Binary64) :
    x.bits.toNat = (if x.negative then Nat.pow 2 63 else 0) + x.magnitude := by
  have := x.magnitude_lt
  rw [bits, UInt64.toNat_ofNat']
  refine Nat.mod_eq_of_lt ?_
  simp only [Nat.pow_eq] at this ⊢
  split <;> omega

/-- A number is determined by its bit pattern. -/
@[simp] theorem ofBits_bits (x : Binary64) : ofBits x.bits = x := by
  have := x.magnitude_lt
  ext <;> cases h : x.negative <;> simp [ofBits, h] <;> omega

/-- Every bit pattern is that of a number. -/
@[simp] theorem bits_ofBits (b : UInt64) : (ofBits b).bits = b := by
  have := b.toNat_lt
  refine UInt64.toNat_inj.1 ?_
  simp only [toNat_bits, ofBits, decide_eq_true_eq, Nat.pow_eq]
  split <;> omega

/-! ### Order -/

/-- The place of a bit pattern in the total order: negative patterns in falling order of magnitude,
then the others in rising order. -/
def rank (x : Binary64) : Int :=
  if x.negative then -(x.magnitude : Int) - 1 else x.magnitude

/-- The total order of bit patterns. It tells the two zeros apart and orders NaNs by sign and
payload, outside the infinities. -/
def compareTotal (x y : Binary64) : Ordering := compare x.rank y.rank

/-- Different bit patterns have different places in the order. -/
theorem rank_inj {x y : Binary64} : x.rank = y.rank ↔ x = y := by
  refine ⟨fun h ↦ ?_, fun h ↦ h ▸ rfl⟩
  -- a negative pattern has a negative rank, so the signs agree, and then the magnitudes do
  obtain ⟨s, m, _⟩ := x
  obtain ⟨s', m', _⟩ := y
  have h' : s = s' ∧ m = m' := by
    cases s <;> cases s' <;> simp [rank] at h ⊢ <;> omega
  exact Binary64.ext h'.1 h'.2

theorem compareTotal_eq_eq_iff {x y : Binary64} : x.compareTotal y = .eq ↔ x = y := by
  rw [compareTotal, Int.compare_eq_eq, rank_inj]

end Binary64

end LogicalQuery
