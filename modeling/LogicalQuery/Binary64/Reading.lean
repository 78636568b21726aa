import LogicalQuery.Binary64.Rounding

/-!
# Reading floating-point numbers

A number is written as an optional sign, digits with at most one point among, before or after
them, and an optional exponent: `e` or `E`, an optional sign, and digits. The words `inf`,
`infinity` and `nan` are read in any case. The number read is the one nearest to the decimal.
-/

namespace LogicalQuery.Binary64

/-- The number nearest to the decimal with the given digits and the given exponent of the last
digit. Decimals whose first digit stands beyond `10 ^ 400` on either side are far outside the
range of finite numbers and need not be computed. -/
def ofDecimal (negative : Bool) (digits : List Char) (exponent : Int) : Binary64 :=
  let significant := digits.dropWhile (· == '0')
  let leading : Int := significant.length + exponent
  if significant.isEmpty || leading < -400 then zero negative
  else if 400 < leading then infinity negative
  else
    let n := Nat.ofDigitChars 10 significant 0
    ofRatio negative (n * Nat.pow 10 exponent.toNat) (Nat.pow 10 (-exponent).toNat)

/-- Splits a text after its leading digits. -/
def spanDigits (cs : List Char) : List Char × List Char :=
  (cs.takeWhile Char.isDigit, cs.dropWhile Char.isDigit)

/-- Takes a sign off the front of a text: whether it was a minus, and the rest. -/
def spanSign : List Char → Bool × List Char
  | '-' :: cs => (true, cs)
  | '+' :: cs => (false, cs)
  | cs => (false, cs)

/-- Reads an exponent up to the end of the text, or zero where the text has ended. -/
def readExponent? : List Char → Option Int
  | [] => some 0
  | c :: cs =>
    if c = 'e' ∨ c = 'E' then
      let (negative, ds) := spanSign cs
      if !ds.isEmpty && ds.all Char.isDigit then
        let n : Int := Nat.ofDigitChars 10 ds 0
        some (if negative then -n else n)
      else none
    else none

/-- Reads a decimal without its sign: its digits, and the exponent of the last one. -/
def readDecimal? (cs : List Char) : Option (List Char × Int) :=
  let (whole, rest) := spanDigits cs
  let (fraction, rest) :=
    match rest with
    | '.' :: rest => spanDigits rest
    | _ => ([], rest)
  if whole.isEmpty && fraction.isEmpty then none
  else (readExponent? rest).map fun e ↦ (whole ++ fraction, e - fraction.length)

/-- Reads a floating-point number. -/
def read? (s : String) : Option Binary64 :=
  let (negative, cs) := spanSign s.toList
  match readDecimal? cs with
  | some (digits, exponent) => some (ofDecimal negative digits exponent)
  | none =>
    let word := String.ofList (cs.map Char.toLower)
    if word = "inf" ∨ word = "infinity" then some (infinity negative)
    else if word = "nan" then some (nan negative)
    else none

end LogicalQuery.Binary64
