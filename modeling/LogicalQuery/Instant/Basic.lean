/-!
# Instants

An instant is a moment in Coordinated Universal Time with nanoseconds, between the years -262143 and
262142. It counts seconds from the start of 1970 without leap seconds; a moment within a leap second
belongs to the second before it, with a billion or more nanoseconds. Any second can have such a
moment, but only the last one of a minute is followed by a leap second in a calendar (`IsRegular`).
-/

namespace LogicalQuery

/-- The number of nanoseconds in a second. -/
abbrev nanosPerSecond : Nat := 1000000000

/-- A moment in Coordinated Universal Time. -/
@[ext] structure Instant where
  /-- Whole seconds since the start of 1970, leap seconds not counted. -/
  seconds : Int
  /-- Nanoseconds within the second, and beyond it within a leap second. -/
  nanos : Nat
  /-- The first second is that of 1 January of the year -262143. -/
  first_le : -8334601228800 ≤ seconds
  /-- The last second is that of 31 December of the year 262142. -/
  le_last : seconds ≤ 8210266876799
  /-- A second has at most one leap second after it. -/
  nanos_lt : nanos < 2 * nanosPerSecond
deriving DecidableEq

namespace Instant

/-- An instant within a leap second is regular if it belongs to the last second of a minute. -/
def IsRegular (t : Instant) : Prop := nanosPerSecond ≤ t.nanos → t.seconds % 60 = 59

/-- The regular instant at the given seconds and nanoseconds, if there is one. -/
def ofUnix? (seconds : Int) (nanos : Nat) : Option Instant :=
  if h : -8334601228800 ≤ seconds ∧ seconds ≤ 8210266876799 ∧ nanos < 2 * nanosPerSecond ∧
      (nanosPerSecond ≤ nanos → seconds % 60 = 59) then
    some ⟨seconds, nanos, h.1, h.2.1, h.2.2.1⟩
  else none

theorem ofUnix?_self {t : Instant} (h : t.IsRegular) : ofUnix? t.seconds t.nanos = some t :=
  dif_pos ⟨t.first_le, t.le_last, t.nanos_lt, h⟩

theorem ofUnix?_eq_some_iff {seconds : Int} {nanos : Nat} {t : Instant} :
    ofUnix? seconds nanos = some t ↔ t.IsRegular ∧ t.seconds = seconds ∧ t.nanos = nanos := by
  constructor
  · intro h
    rw [ofUnix?] at h
    split at h
    next hunix =>
      obtain rfl := Option.some.inj h
      exact ⟨hunix.2.2.2, rfl, rfl⟩
    next => exact nomatch h
  · rintro ⟨hregular, rfl, rfl⟩
    exact ofUnix?_self hregular

/-- Instants are ordered by their seconds, and within a second by their nanoseconds. -/
def compare (a b : Instant) : Ordering :=
  (Ord.compare a.seconds b.seconds).then (Ord.compare a.nanos b.nanos)

theorem compare_eq_eq_iff {a b : Instant} : a.compare b = .eq ↔ a = b := by
  rw [Instant.compare, Ordering.then_eq_eq, Int.compare_eq_eq, Nat.compare_eq_eq, Instant.ext_iff]

end Instant

end LogicalQuery
