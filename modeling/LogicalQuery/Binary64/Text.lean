import LogicalQuery.Binary64.Shortest

/-!
# Floating-point numbers as text

A number is written with the fewest digits that identify it. `text` is always positional;
`generalText` changes to an exponent for small and for large numbers, and has its own words for
the infinities.
-/

namespace LogicalQuery

namespace Decimal

/-- The digits of a decimal as characters. -/
def digitChars (d : Decimal) : List Char := Nat.toDigits 10 d.digits

/-- The power of ten of the first digit. -/
def leadingExponent (d : Decimal) : Int := d.digitChars.length - 1 + d.exponent

/-- A decimal in positional form: zeros are filled in up to the point, and no point is written
after the last digit. -/
def positional (d : Decimal) : List Char :=
  let cs := d.digitChars
  let places := (-d.exponent).toNat
  if 0 ≤ d.exponent then cs ++ List.replicate d.exponent.toNat '0'
  else if places < cs.length then
    cs.take (cs.length - places) ++ '.' :: cs.drop (cs.length - places)
  else
    '0' :: '.' :: (List.replicate (places - cs.length) '0' ++ cs)

/-- A decimal with one digit before the point and an exponent, which has a sign and at least two
digits. -/
def scientific (d : Decimal) : List Char :=
  let e := d.leadingExponent
  let exponentDigits := Nat.toDigits 10 e.natAbs
  let fraction := d.digitChars.drop 1
  d.digitChars.take 1 ++ (if fraction.isEmpty then [] else '.' :: fraction)
    ++ ['e', if e < 0 then '-' else '+']
    ++ List.replicate (2 - exponentDigits.length) '0' ++ exponentDigits

end Decimal

namespace Binary64

/-- The sign in front of a number. -/
def signChars (x : Binary64) : List Char := if x.negative then ['-'] else []

/-- The number in positional form. Zero keeps its sign. -/
def text (x : Binary64) : String :=
  if x.isNaN then "NaN"
  else if x.isInfinite then String.ofList (x.signChars ++ "inf".toList)
  else if x.isZero then String.ofList (x.signChars ++ ['0'])
  else String.ofList (x.signChars ++ (shortest x.magnitude).positional)

/-- Whether a power of ten of the first digit calls for the positional form in `generalText`. -/
def isPlainExponent (e : Int) : Bool := -4 ≤ e && e < 6

/-- The number in positional form if its first digit stands at a power of ten from -4 to 5, and
with an exponent otherwise. -/
def generalText (x : Binary64) : String :=
  if x.isNaN then "NaN"
  else if x.isInfinite then (if x.negative then "-Inf" else "+Inf")
  else if x.isZero then x.text
  else
    let d := shortest x.magnitude
    if isPlainExponent d.leadingExponent then x.text
    else String.ofList (x.signChars ++ d.scientific)

end Binary64

end LogicalQuery
