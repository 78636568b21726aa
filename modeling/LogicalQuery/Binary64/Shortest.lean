import LogicalQuery.Binary64.Basic

/-!
# Shortest decimals

The decimals that round to a given magnitude fill an interval, from halfway to the magnitude below
to halfway to the magnitude above; the two ends belong to it when the magnitude is even.
`shortest` is the decimal in this interval with the fewest digits, and of those the nearest to the
value itself; the upper one is taken when two are equally near.

All quantities are natural numbers of `10 ^ -1075`: half a unit is `5 ^ 1075` of them, so values
and ends of intervals are exact, and a multiple of `10 ^ j` is a point of the decimal grid with
`j - 1075` as its exponent.
-/

namespace LogicalQuery

/-- The decimal number `digits * 10 ^ exponent`. -/
structure Decimal where
  /-- The digits, as a natural number. -/
  digits : Nat
  /-- The exponent of the last digit. -/
  exponent : Int
deriving DecidableEq, Repr

namespace Binary64

/-- Half a unit of `2 ^ -1074`, counted in `10 ^ -1075`. -/
def halfUnit : Nat := Nat.pow 5 1075

/-- The value of a magnitude, counted in `10 ^ -1075`. -/
def exactDigits (m : Nat) : Nat := 2 * units m * halfUnit

/-- The lower end of the interval of decimals that round to `m`, counted in `10 ^ -1075`. -/
def lowerEnd (m : Nat) : Nat := (units (m - 1) + units m) * halfUnit

/-- The upper end of the interval of decimals that round to `m`, counted in `10 ^ -1075`. -/
def upperEnd (m : Nat) : Nat := (units m + units (m + 1)) * halfUnit

/-- Whether a decimal, counted in `10 ^ -1075`, rounds to the magnitude `m`. -/
def readsBack (m n : Nat) : Bool :=
  if m % 2 = 0 then lowerEnd m ≤ n && n ≤ upperEnd m else lowerEnd m < n && n < upperEnd m

/-- The multiple of `10 ^ j` that rounds to `m` and is nearest to its value, divided by `10 ^ j`. -/
def onGrid? (m j : Nat) : Option Nat :=
  let value := exactDigits m
  let below := value / Nat.pow 10 j
  let above := below + 1
  let aboveIsNearer := Nat.pow 10 j ≤ 2 * (value % Nat.pow 10 j)
  if readsBack m (above * Nat.pow 10 j) &&
      (aboveIsNearer || !readsBack m (below * Nat.pow 10 j)) then
    some above
  else if readsBack m (below * Nat.pow 10 j) then some below
  else none

/-- The decimal of the coarsest grid, from `10 ^ j` downwards, that rounds to `m`. The finest grid
holds the value itself. -/
def shortestFrom (m : Nat) : Nat → Decimal
  | 0 => ⟨exactDigits m, -1075⟩
  | j + 1 =>
    match onGrid? m (j + 1) with
    | some n => ⟨n, (j : Int) + 1 - 1075⟩
    | none => shortestFrom m j

/-- The shortest decimal that rounds to the magnitude `m`, which is neither zero nor infinite. The
search starts at a power of ten above the interval. -/
def shortest (m : Nat) : Decimal :=
  shortestFrom m (((upperEnd m).log2 + 1) * 30103 / 100000 + 1)

end Binary64

end LogicalQuery
