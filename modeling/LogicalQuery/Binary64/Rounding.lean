import LogicalQuery.Binary64.Basic

/-!
# Rounding

An exact quotient becomes the nearest floating-point number, and of two equally near ones the one
with the even magnitude. Integers and single-precision numbers are converted by this rule. The
opposite direction, from a floating-point number to an integer, drops the fraction.
-/

namespace LogicalQuery.Binary64

/-- The integer nearest to `num / den`, and of two equally near ones the even one. -/
def roundHalfEven (num den : Nat) : Nat :=
  let q := num / den
  let r := num % den
  if 2 * r < den then q
  else if den < 2 * r then q + 1
  else if q % 2 = 0 then q else q + 1

/-- The magnitude nearest to `num / den`. The quotient is counted in multiples of `2 ^ k` units,
where `k` is chosen so that the count has at most 53 binary digits; magnitudes grow by `2 ^ 52`
with each step of `k`. -/
def nearestMagnitude (num den : Nat) : Nat :=
  let scaled := num * Nat.pow 2 1074
  let k := (scaled / den).log2 - 52
  min infinityMagnitude (k * Nat.pow 2 52 + roundHalfEven scaled (den * Nat.pow 2 k))

/-- The number of the given sign nearest to `num / den`. -/
def ofRatio (negative : Bool) (num den : Nat) : Binary64 where
  negative := negative
  magnitude := nearestMagnitude num den
  magnitude_lt := Nat.lt_of_le_of_lt (Nat.min_le_left _ _) (by decide)

/-- The number nearest to an integer. -/
def ofInt (n : Int) : Binary64 := ofRatio (decide (n < 0)) n.natAbs 1

/-- The integer part of a number, rounded toward zero. A NaN has the integer part zero, and an
infinity one beyond every finite number. -/
def truncate (x : Binary64) : Int :=
  if x.isNaN then 0
  else
    let n : Nat := units x.magnitude / Nat.pow 2 1074
    if x.negative then -(n : Int) else n

end LogicalQuery.Binary64
