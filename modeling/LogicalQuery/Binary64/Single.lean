import LogicalQuery.Binary64.Rounding

/-!
# Single-precision numbers

A `Binary32` is a bit pattern of the 32-bit interchange format. Every number of this format is
also one of the 64-bit format.
-/

namespace LogicalQuery

/-- A binary floating-point number of 32 bits, by its bit pattern. -/
structure Binary32 where
  /-- The bit pattern. -/
  bits : UInt32
deriving DecidableEq

namespace Binary32

/-- Whether the sign bit is set. -/
def negative (x : Binary32) : Bool := Nat.pow 2 31 ≤ x.bits.toNat

/-- The bits below the sign bit. -/
def magnitude (x : Binary32) : Nat := x.bits.toNat % Nat.pow 2 31

/-- The magnitude of the infinities. Greater magnitudes are NaNs. -/
def infinityMagnitude : Nat := 255 * Nat.pow 2 23

/-- The absolute value of a finite magnitude, in units of `2 ^ -149`. -/
def units (m : Nat) : Nat :=
  if m < Nat.pow 2 23 then m
  else (Nat.pow 2 23 + m % Nat.pow 2 23) * Nat.pow 2 (m / Nat.pow 2 23 - 1)

/-- The same number with 64 bits. A NaN keeps its sign and its payload and becomes quiet. -/
def toBinary64 (x : Binary32) : Binary64 :=
  if x.magnitude < infinityMagnitude then
    .ofRatio x.negative (units x.magnitude) (Nat.pow 2 149)
  else if x.magnitude = infinityMagnitude then .infinity x.negative
  else
    { negative := x.negative
      magnitude :=
        Binary64.infinityMagnitude + Nat.pow 2 51 + x.magnitude % Nat.pow 2 22 * Nat.pow 2 29
      magnitude_lt := by
        have : x.magnitude % Nat.pow 2 22 < Nat.pow 2 22 := Nat.mod_lt _ (by decide)
        simp only [Binary64.infinityMagnitude, Nat.pow_eq] at this ⊢
        omega }

end Binary32

end LogicalQuery
