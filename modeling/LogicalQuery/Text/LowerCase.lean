import LogicalQuery.Text.CodePoints
import LogicalQuery.Text.LowerCase.Table

/-!
# Lower case

`toLower` is the full lower-case mapping of Unicode 17.0, independent of any locale. A character
maps by itself, with two exceptions: `İ` becomes two characters, and a capital sigma takes its
final form at the end of a word. `eqIgnoringAsciiCase` compares texts up to the case of the
letters `A` to `Z` alone, and so is the finer of the two.
-/

namespace LogicalQuery.Text

/-- Whether the code point `n` belongs to the run. -/
def CaseRun.contains (r : CaseRun) (n : Nat) : Bool :=
  r.first ≤ n && n ≤ r.last && (n - r.first) % r.step == 0

/-- The lower case of a character that stands alone. -/
def lowerChar (c : Char) : List Char :=
  if c.toNat < 128 then [c.toLower]
  else if c = 'İ' then ['i', '\u0307']
  else
    match lowerRuns.find? (·.contains c.toNat) with
    | some r => [Char.ofNat (c.toNat + r.offset).toNat]
    | none => [c]

/-- Whether the first character that is not ignored for case is a cased letter. -/
def startsCased (cs : List Char) : Bool :=
  match cs.dropWhile (inRanges caseIgnorableRanges) with
  | c :: _ => inRanges casedRanges c
  | [] => false

/-- The lower case of a capital sigma between the characters `before`, nearest first, and `after`:
final after a letter of the same word, if no letter of that word follows. -/
def lowerSigma (before after : List Char) : Char :=
  if startsCased before && !startsCased after then 'ς' else 'σ'

/-- The lower case of the characters that follow `before`, whose nearest character comes first. -/
def lowerFrom (before : List Char) : List Char → List Char
  | [] => []
  | c :: after =>
    (if c = 'Σ' then [lowerSigma before after] else lowerChar c) ++ lowerFrom (c :: before) after

/-- The text in lower case. -/
def toLower (s : String) : String :=
  String.ofList (lowerFrom [] s.toList)

/-- Whether two texts agree up to the case of the letters `A` to `Z`. -/
def eqIgnoringAsciiCase (s t : String) : Bool :=
  s.toList.map Char.toLower == t.toList.map Char.toLower

end LogicalQuery.Text
