import LogicalQuery.Text.CodePoints.Table

/-!
# Sets of code points

A set of characters is given as a list of closed ranges of code points. Two such sets matter for
how texts are read and shown: the characters with the Unicode property White_Space (Unicode 17.0)
are trimmed off the ends of a text, and those that would not be seen on their own do not stand for
themselves between quotes.
-/

namespace LogicalQuery.Text

/-- Whether the code point of the character lies in one of the ranges. -/
def inRanges (ranges : List (Nat × Nat)) (c : Char) : Bool :=
  ranges.any fun r ↦ r.1 ≤ c.toNat && c.toNat ≤ r.2

/-! ### White space -/

/-- The ranges of the property White_Space. -/
def blankRanges : List (Nat × Nat) :=
  [(0x09, 0x0D), (0x20, 0x20), (0x85, 0x85), (0xA0, 0xA0), (0x1680, 0x1680), (0x2000, 0x200A),
   (0x2028, 0x2029), (0x202F, 0x202F), (0x205F, 0x205F), (0x3000, 0x3000)]

/-- Whether the character is white space. -/
def isBlank (c : Char) : Bool := inRanges blankRanges c

/-- The text without the white space at its two ends. -/
def trim (s : String) : String :=
  let front := s.toList.dropWhile isBlank
  String.ofList (front.reverse.dropWhile isBlank).reverse

/-!
### Quotes

A text is shown between double quotes. The double quote, the backslash, NUL, tab, line feed and
carriage return are written with a backslash; a character that would not be seen on its own is
written by its code point, `\u` and hexadecimal digits in braces; every other character stands
for itself.
-/

/-- The letter after the backslash, for the characters that have such a form. -/
def escapeLetter? : Char → Option Char
  | '\x00' => some '0'
  | '\t' => some 't'
  | '\n' => some 'n'
  | '\r' => some 'r'
  | '"' => some '"'
  | '\\' => some '\\'
  | _ => none

/-- The form of a character within quotes. -/
def quoteChar (c : Char) : List Char :=
  match escapeLetter? c with
  | some l => ['\\', l]
  | none =>
    if inRanges hiddenRanges c then
      ['\\', 'u', '\x7b'] ++ Nat.toDigits 16 c.toNat ++ ['\x7d']
    else [c]

/-- The text between double quotes. -/
def quote (s : String) : String :=
  String.ofList ('"' :: (s.toList.flatMap quoteChar ++ ['"']))

end LogicalQuery.Text
