import LogicalQuery.Calendar
import LogicalQuery.Instant.Basic
import LogicalQuery.Text.Numeral

/-!
# Instants as RFC 3339 text

An instant is written in Coordinated Universal Time, as `2024-02-29T23:59:60.500+00:00`. The
fraction has three, six or nine digits, or is left out when it is zero; a leap second is second
60. Years beyond four digits and years before year 0 have a sign, which RFC 3339 does not know.

A text is read with any offset of hours and minutes. The letters `T` and `Z` may be small, a blank
may stand for the `T`, and the offset may have the minus sign U+2212. The first nine digits of a
fraction count. Second 60 is read in every minute.
-/

namespace LogicalQuery.Instant

open LogicalQuery.Text

/-! ### Writing -/

/-- The year with at least four digits, and with a sign outside the years 0 to 9999. -/
def yearText (year : Int) : String :=
  if 0 ≤ year ∧ year ≤ 9999 then padNat 4 year.natAbs
  else (if year < 0 then "-" else "+") ++ padNat 4 year.natAbs

/-- The fraction of a second with a point before it, in groups of three digits. -/
def fractionText (nanos : Nat) : String :=
  if nanos = 0 then ""
  else if nanos % 1000000 = 0 then "." ++ padNat 3 (nanos / 1000000)
  else if nanos % 1000 = 0 then "." ++ padNat 6 (nanos / 1000)
  else "." ++ padNat 9 nanos

/-- The instant in the form of RFC 3339. -/
def toRfc3339 (t : Instant) : String :=
  let date := CivilDate.ofDayNumber (t.seconds / 86400)
  let time := (t.seconds % 86400).toNat
  let leap := t.nanos / nanosPerSecond
  yearText date.year ++ "-" ++ padNat 2 date.month ++ "-" ++ padNat 2 date.day ++ "T"
    ++ padNat 2 (time / 3600) ++ ":" ++ padNat 2 (time / 60 % 60) ++ ":"
    ++ padNat 2 (time % 60 + leap) ++ fractionText (t.nanos % nanosPerSecond) ++ "+00:00"

/-! ### Reading -/

/-- A reader takes what it reads off the front of a text, or refuses the text. -/
abbrev Reader := StateT (List Char) Option

namespace Reader

/-- Reads a character that satisfies `p`. -/
def char (p : Char → Bool) : Reader Char := fun cs ↦
  match cs with
  | c :: rest => if p c then some (c, rest) else none
  | [] => none

/-- Reads a number of exactly `width` digits. -/
def digits (width : Nat) : Reader Nat := fun cs ↦
  let front := cs.take width
  if front.length = width ∧ front.all Char.isDigit then
    some (Nat.ofDigitChars 10 front 0, cs.drop width)
  else none

/-- Reads a number of two digits that is at most `bound`. -/
def twoDigits (bound : Nat) : Reader Nat := do
  let n ← digits 2
  if n ≤ bound then return n else failure

/-- Reads a fraction of a second, if there is one, as nanoseconds. -/
def fraction : Reader Nat := fun cs ↦
  match cs with
  | '.' :: rest =>
    let ds := rest.takeWhile Char.isDigit
    if ds.isEmpty then none
    else
      let nine := ds.take 9
      some (Nat.ofDigitChars 10 nine 0 * Nat.pow 10 (9 - nine.length), rest.dropWhile Char.isDigit)
  | _ => some (0, cs)

/-- Reads an offset from Coordinated Universal Time, in seconds. -/
def offset : Reader Int := do
  let mark ← char fun c ↦ c ∈ ['Z', 'z', '+', '-', '−']
  if mark = 'Z' ∨ mark = 'z' then return 0
  let hours ← twoDigits 23
  let _ ← char (· == ':')
  let minutes ← twoDigits 59
  let seconds : Int := 3600 * hours + 60 * minutes
  return if mark = '+' then seconds else -seconds

/-- Reads an instant. -/
def instant : Reader Instant := do
  let year ← digits 4
  let _ ← char (· == '-')
  let month ← digits 2
  let _ ← char (· == '-')
  let day ← digits 2
  let _ ← char fun c ↦ c ∈ ['T', 't', ' ']
  let hour ← twoDigits 23
  let _ ← char (· == ':')
  let minute ← twoDigits 59
  let _ ← char (· == ':')
  let second ← twoDigits 60
  let nanos ← fraction
  let offset ← offset
  let date : CivilDate := { year, month, day }
  if !date.isValid then failure
  let leap := second / 60
  let time : Int := 3600 * hour + 60 * minute + second - leap
  ofUnix? (86400 * date.dayNumber + time - offset) (leap * nanosPerSecond + nanos)

end Reader

/-- The instant that a text of RFC 3339 denotes, if it is one. -/
def ofRfc3339? (s : String) : Option Instant :=
  match Reader.instant s.toList with
  | some (t, []) => some t
  | _ => none

end LogicalQuery.Instant
