/-!
# Decimal numerals of integers

A numeral is an optional sign and at least one decimal digit. `readNat` and `readInt` read a
numeral of a number within a range, from the left: reading stops at the first character that is
no digit, or at the first digit that takes the number out of the range, whichever comes first.
Numbers are written by `toString`, without a plus sign and without leading zeros.
-/

namespace LogicalQuery.Text

/-- Why a text is not the numeral of a number within the range asked for. -/
inductive NumeralFault where
  /-- A character has no place in a numeral, or there is no digit. -/
  | malformed
  /-- The digits read so far denote a number outside the range. -/
  | outOfRange
deriving DecidableEq, Repr

/-- The value of a decimal digit. -/
def digitValue? (c : Char) : Option Nat :=
  if c.isDigit then some (c.toNat - '0'.toNat) else none

/-- Reads digits after a number `n`, as long as the number stays at or below `bound`. -/
def readDigits (bound : Nat) (n : Nat) : List Char → Except NumeralFault Nat
  | [] => .ok n
  | c :: cs =>
    match digitValue? c with
    | none => .error .malformed
    | some d =>
      if 10 * n + d ≤ bound then readDigits bound (10 * n + d) cs else .error .outOfRange

/-- Reads a sequence of at least one digit that denotes a number at or below `bound`. -/
def readMagnitude (bound : Nat) : List Char → Except NumeralFault Nat
  | [] => .error .malformed
  | c :: cs => readDigits bound 0 (c :: cs)

/-- Reads the numeral of a natural number at or below `bound`. A plus sign may lead. -/
def readNat (bound : Nat) (s : String) : Except NumeralFault Nat :=
  match s.toList with
  | '+' :: cs => readMagnitude bound cs
  | cs => readMagnitude bound cs

/-- Reads the numeral of an integer from `lo` to `hi`, a range that holds zero. A plus or a minus
sign may lead. -/
def readInt (lo hi : Int) (s : String) : Except NumeralFault Int :=
  match s.toList with
  | '-' :: cs => (readMagnitude lo.natAbs cs).map fun n ↦ -(n : Int)
  | '+' :: cs => (readMagnitude hi.toNat cs).map Int.ofNat
  | cs => (readMagnitude hi.toNat cs).map Int.ofNat

/-- Reads the numeral of a 32-bit integer. -/
def readInt32 (s : String) : Except NumeralFault Int32 :=
  (readInt Int32.minValue.toInt Int32.maxValue.toInt s).map Int32.ofInt

/-- Reads the numeral of a 64-bit integer. -/
def readInt64 (s : String) : Except NumeralFault Int64 :=
  (readInt Int64.minValue.toInt Int64.maxValue.toInt s).map Int64.ofInt

/-- The numeral of `n` with zeros in front, so that it has at least `width` digits. -/
def padNat (width n : Nat) : String :=
  let digits := Nat.toDigits 10 n
  String.ofList (List.replicate (width - digits.length) '0' ++ digits)

end LogicalQuery.Text
