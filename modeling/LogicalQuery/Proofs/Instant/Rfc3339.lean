import LogicalQuery.Proofs.Calendar
import LogicalQuery.Proofs.Text.Digits
import LogicalQuery.Value.Conversion

/-!
# Instants through RFC 3339

Each part of the text of an instant is read back as the number it was written for, and the rest is
left to the readers after it (`Reader.digits_padNat`, `Reader.fraction_fractionText`). The day and
the time of day then give the seconds of the instant, as every day has one date, and the second 60
gives a leap second back. What keeps some instants from coming back is the year: outside the years 0
to 9999 it is written with a sign, with which no text of RFC 3339 starts. Moreover, a leap second
after any other second than the last one of a minute is written like the second that follows
(`Instant.toRfc3339_regular`), and so it is read back as that (`DataType.convert_rfc3339`).
-/

namespace LogicalQuery

open LogicalQuery.Text

namespace Instant

/-! ### Readers -/

namespace Reader

variable {cs rest : List Char}

/-- A reader that takes something off the front of a text leaves the rest to those after it. -/
theorem bind_eq {α β : Type} {r : Reader α} {f : α → Reader β} {a : α}
    (h : r cs = some (a, rest)) : (r >>= f) cs = f a rest := by
  show (r cs >>= fun p ↦ f p.1 p.2) = f a rest
  rw [h]
  rfl

theorem bind_eq_none {α β : Type} {r : Reader α} {f : α → Reader β} (h : r cs = none) :
    (r >>= f) cs = none := by
  show (r cs >>= fun p ↦ f p.1 p.2) = none
  rw [h]
  rfl

theorem char_cons {p : Char → Bool} {c : Char} (h : p c = true) :
    char p (c :: rest) = some (c, rest) := by
  rw [char, if_pos h]

theorem digits_padNat {width n : Nat} (hwidth : 0 < width) (h : n < 10 ^ width) :
    digits width ((padNat width n).toList ++ rest) = some (n, rest) := by
  have hlength := length_padNat hwidth h
  have htake : ((padNat width n).toList ++ rest).take width = (padNat width n).toList := by
    rw [List.take_append_of_le_length (by omega), List.take_of_length_le (by omega)]
  have hdrop : ((padNat width n).toList ++ rest).drop width = rest := by
    rw [List.drop_append, List.drop_of_length_le (by omega), hlength, Nat.sub_self]
    rfl
  have hall : (padNat width n).toList.all Char.isDigit = true :=
    List.all_eq_true.2 fun c ↦ isDigit_of_mem_padNat
  rw [digits]
  simp only [htake, hdrop]
  rw [if_pos ⟨hlength, hall⟩, ofDigitChars_padNat]

/-- A text that does not start with digits is no number. -/
theorem digits_cons_eq_none {width : Nat} {c : Char} (hwidth : 0 < width) (hc : c.isDigit = false) :
    digits width (c :: rest) = none := by
  obtain ⟨width, rfl⟩ := Nat.exists_eq_add_one_of_ne_zero (Nat.ne_of_gt hwidth)
  rw [digits]
  simp [hc]

theorem twoDigits_padNat {bound n : Nat} (hbound : bound < 100) (h : n ≤ bound) :
    twoDigits bound ((padNat 2 n).toList ++ rest) = some (n, rest) := by
  rw [twoDigits, bind_eq (digits_padNat (by decide) (by omega)), if_pos h]
  rfl

/-- A point and some digits are read as the fraction that they denote. -/
theorem fraction_cons {width digits : Nat} (hwidth : 0 < width) (hle : width ≤ 9)
    (hdigits : digits < 10 ^ width) (hrest : EndsDigits rest) :
    fraction ('.' :: ((padNat width digits).toList ++ rest)) =
      some (digits * 10 ^ (9 - width), rest) := by
  have hlength := length_padNat hwidth hdigits
  have hall (c : Char) : c ∈ (padNat width digits).toList → c.isDigit = true :=
    isDigit_of_mem_padNat
  have hnonempty : (padNat width digits).toList.isEmpty = false := by
    rw [List.isEmpty_eq_false_iff, ← List.length_pos_iff, hlength]
    exact hwidth
  rw [fraction]
  simp only [takeWhile_digits_append hall hrest, dropWhile_digits_append hall hrest, hnonempty]
  rw [List.take_of_length_le (by omega), ofDigitChars_padNat, hlength]
  rfl

theorem fraction_eq_zero (h : rest.head? ≠ some '.') : fraction rest = some (0, rest) := by
  unfold fraction
  split
  next => exact absurd rfl h
  next => rfl

/-- **The fraction that is written is the fraction that is read.** -/
theorem fraction_fractionText {nanos : Nat} (h : nanos < nanosPerSecond)
    (hrest : EndsDigits rest) (hpoint : rest.head? ≠ some '.') :
    fraction ((fractionText nanos).toList ++ rest) = some (nanos, rest) := by
  have h : nanos < 1000000000 := h
  have hpoint' (text : String) : ("." ++ text).toList ++ rest = '.' :: (text.toList ++ rest) := by
    rw [String.toList_append]
    rfl
  unfold fractionText
  split
  next hzero =>
    rw [hzero]
    exact fraction_eq_zero hpoint
  next =>
    split
    next hmilli =>
      rw [hpoint', fraction_cons (by decide) (by decide) (by omega) hrest]
      congr 2
      omega
    next =>
      split
      next hmicro =>
        rw [hpoint', fraction_cons (by decide) (by decide) (by omega) hrest]
        congr 2
        omega
      next =>
        rw [hpoint', fraction_cons (by decide) (by decide) (by omega) hrest]
        congr 2
        omega

theorem offset_utc : offset "+00:00".toList = some (0, []) := rfl

/-- The text of a month, a day, a time of day and the offset zero, as it stands after a year. -/
def afterYear (month day hour minute second nanos : Nat) : List Char :=
  '-' :: ((padNat 2 month).toList ++ '-' :: ((padNat 2 day).toList ++ 'T' ::
    ((padNat 2 hour).toList ++ ':' :: ((padNat 2 minute).toList ++ ':' ::
      ((padNat 2 second).toList ++ ((fractionText nanos).toList ++ "+00:00".toList))))))

/-- A date that exists and a time of day are read as the instant that they give, if there is one. -/
theorem instant_append {year month day hour minute second nanos : Nat}
    (hvalid : CivilDate.isValid ⟨year, month, day⟩ = true) (hyear : year ≤ 9999) (hhour : hour ≤ 23)
    (hminute : minute ≤ 59) (hsecond : second ≤ 60) (hnanos : nanos < nanosPerSecond) :
    instant ((padNat 4 year).toList ++ afterYear month day hour minute second nanos) =
      (ofUnix? (86400 * CivilDate.dayNumber ⟨year, month, day⟩ +
          (3600 * hour + 60 * minute + second - (second / 60 : Nat)))
        (second / 60 * nanosPerSecond + nanos)).map (·, []) := by
  obtain ⟨hmonth, hday⟩ := CivilDate.le_of_isValid hvalid
  dsimp only at hmonth hday
  have hend : EndsDigits "+00:00".toList := rfl
  have hpoint : "+00:00".toList.head? ≠ some '.' := by decide
  rw [afterYear, instant, bind_eq (digits_padNat (by decide) (by omega)), bind_eq (char_cons rfl),
    bind_eq (digits_padNat (by decide) (by omega)), bind_eq (char_cons rfl),
    bind_eq (digits_padNat (by decide) (by omega)), bind_eq (char_cons (by decide)),
    bind_eq (twoDigits_padNat (by decide) hhour), bind_eq (char_cons rfl),
    bind_eq (twoDigits_padNat (by decide) hminute), bind_eq (char_cons rfl),
    bind_eq (twoDigits_padNat (by decide) hsecond),
    bind_eq (fraction_fractionText hnanos hend hpoint), bind_eq offset_utc]
  simp only [hvalid, Bool.not_true, Bool.false_eq_true, if_false, Int.sub_zero]
  generalize ofUnix? _ _ = found
  cases found <;> rfl

/-- A text that starts with a sign is no instant. -/
theorem instant_cons_eq_none {c : Char} (hc : c.isDigit = false) : instant (c :: rest) = none := by
  rw [instant, bind_eq_none (digits_cons_eq_none (by decide) hc)]

end Reader

/-! ### Instants -/

/-- The date of an instant. -/
def date (t : Instant) : CivilDate := CivilDate.ofDayNumber (t.seconds / 86400)

/-- The number of seconds since the start of the day, leap seconds not counted. -/
def timeOfDay (t : Instant) : Nat := (t.seconds % 86400).toNat

/-- The number of leap seconds that the instant lies in. -/
def leap (t : Instant) : Nat := t.nanos / nanosPerSecond

theorem toList_toRfc3339 (t : Instant) :
    t.toRfc3339.toList = (yearText t.date.year).toList ++
      Reader.afterYear t.date.month t.date.day (t.timeOfDay / 3600) (t.timeOfDay / 60 % 60)
        (t.timeOfDay % 60 + t.leap) (t.nanos % nanosPerSecond) := by
  have hdash : "-".toList = ['-'] := rfl
  have htime : "T".toList = ['T'] := rfl
  have hcolon : ":".toList = [':'] := rfl
  simp only [toRfc3339, Reader.afterYear, date, timeOfDay, leap, String.toList_append, hdash, htime,
    hcolon, List.append_assoc, List.cons_append, List.nil_append]

/-- The regular instant of the same text. Within a leap second that follows any other second than
the last one of a minute, it is an instant of the next second. -/
def regular (t : Instant) : Instant :=
  if h : nanosPerSecond ≤ t.nanos ∧ t.seconds % 60 ≠ 59 then
    have := t.first_le
    have := t.le_last
    have := t.nanos_lt
    ⟨t.seconds + 1, t.nanos - nanosPerSecond, by omega, by omega, by omega⟩
  else t

theorem regular_eq_self_iff {t : Instant} : t.regular = t ↔ t.IsRegular := by
  rw [regular, IsRegular]
  split
  next h =>
    refine iff_of_false (fun heq ↦ ?_) fun hregular ↦ h.2 (hregular h.1)
    have hseconds := congrArg Instant.seconds heq
    dsimp only at hseconds
    omega
  next h => exact iff_of_true rfl fun hleap ↦ Decidable.not_not.1 fun hne ↦ h ⟨hleap, hne⟩

theorem regular_of_not_isRegular {t : Instant} (h : ¬t.IsRegular) :
    t.seconds % 60 ≠ 59 ∧ t.regular.seconds = t.seconds + 1 ∧
      t.regular.nanos + nanosPerSecond = t.nanos := by
  obtain ⟨hleap, hne⟩ := Classical.not_imp.1 h
  rw [regular, dif_pos ⟨hleap, hne⟩]
  exact ⟨hne, rfl, Nat.sub_add_cancel hleap⟩

theorem isRegular_regular (t : Instant) : t.regular.IsRegular := by
  by_cases h : t.IsRegular
  · rwa [regular_eq_self_iff.2 h]
  · have hnanos := t.nanos_lt
    obtain ⟨-, -, hregular⟩ := regular_of_not_isRegular h
    exact fun hleap ↦ absurd hleap (by omega)

/-- The next second lies in the same minute. -/
theorem minute_regular (t : Instant) : t.regular.seconds / 60 = t.seconds / 60 := by
  by_cases h : t.IsRegular
  · rw [regular_eq_self_iff.2 h]
  · obtain ⟨hne, hseconds, -⟩ := regular_of_not_isRegular h
    omega

theorem date_regular (t : Instant) : t.regular.date = t.date := by
  have hminute := t.minute_regular
  have hday : t.regular.seconds / 86400 = t.seconds / 86400 := by omega
  rw [date, date, hday]

/-- **An instant is written like a regular one.** -/
theorem toRfc3339_regular (t : Instant) : t.regular.toRfc3339 = t.toRfc3339 := by
  by_cases h : t.IsRegular
  · rw [regular_eq_self_iff.2 h]
  · have hlt := t.nanos_lt
    have hminute := t.minute_regular
    obtain ⟨hne, hseconds, hnanos⟩ := regular_of_not_isRegular h
    have hhour : t.regular.timeOfDay / 3600 = t.timeOfDay / 3600 := by
      unfold timeOfDay
      omega
    have hminute' : t.regular.timeOfDay / 60 % 60 = t.timeOfDay / 60 % 60 := by
      unfold timeOfDay
      omega
    have hsecond : t.regular.timeOfDay % 60 + t.regular.leap = t.timeOfDay % 60 + t.leap := by
      unfold timeOfDay leap
      rw [← hnanos, Nat.add_div_right _ (by decide), Nat.div_eq_of_lt (by omega)]
      omega
    have hfraction : t.regular.nanos % nanosPerSecond = t.nanos % nanosPerSecond := by
      rw [← hnanos, Nat.add_mod_right]
    rw [← String.toList_inj, toList_toRfc3339, toList_toRfc3339, date_regular, hhour, hminute',
      hsecond, hfraction]

/-- A leap second makes the last second of a minute the sixtieth. -/
theorem second_le {t : Instant} (h : t.IsRegular) : t.timeOfDay % 60 + t.leap ≤ 60 ∧
    (t.timeOfDay % 60 + t.leap) / 60 = t.leap := by
  have hnanos : t.nanos < 2 * 1000000000 := t.nanos_lt
  have hleap : 1000000000 ≤ t.nanos → t.seconds % 60 = 59 := h
  unfold timeOfDay leap
  rw [show nanosPerSecond = 1000000000 from rfl]
  omega

theorem instant_of_year {t : Instant} (h : t.IsRegular)
    (hyear : 0 ≤ t.date.year ∧ t.date.year ≤ 9999) :
    Reader.instant t.toRfc3339.toList = some (t, []) := by
  obtain ⟨hvalid, hnumber⟩ := CivilDate.ofDayNumber_spec (t.seconds / 86400)
  obtain ⟨hsecond, hleap⟩ := second_le h
  have hdate : (⟨t.date.year.natAbs, t.date.month, t.date.day⟩ : CivilDate) = t.date := by
    rw [Int.natAbs_of_nonneg hyear.1]
  have htime : t.timeOfDay < 86400 := by
    unfold timeOfDay
    omega
  have hseconds : 86400 * t.date.dayNumber + (3600 * (t.timeOfDay / 3600 : Nat) +
      60 * (t.timeOfDay / 60 % 60 : Nat) + (t.timeOfDay % 60 + t.leap : Nat) - t.leap) =
      t.seconds := by
    rw [date, hnumber]
    unfold timeOfDay
    omega
  have hnanos : t.leap * nanosPerSecond + t.nanos % nanosPerSecond = t.nanos :=
    Nat.div_add_mod' ..
  rw [toList_toRfc3339, yearText, if_pos hyear,
    Reader.instant_append (by rw [hdate]; exact hvalid) (by omega) (by omega) (by omega) hsecond
      (Nat.mod_lt _ (by decide)),
    hdate, hleap, hseconds, hnanos, ofUnix?_self h]
  rfl

theorem instant_of_not_year {t : Instant} (hyear : ¬(0 ≤ t.date.year ∧ t.date.year ≤ 9999)) :
    Reader.instant t.toRfc3339.toList = none := by
  rw [toList_toRfc3339, yearText, if_neg hyear, String.toList_append]
  split
  next => exact Reader.instant_cons_eq_none rfl
  next => exact Reader.instant_cons_eq_none rfl

/-- The text of an instant is read as the regular instant of that text if the year has four digits,
and is refused otherwise. -/
theorem ofRfc3339?_toRfc3339 (t : Instant) : ofRfc3339? t.toRfc3339 =
    if 0 ≤ t.date.year ∧ t.date.year ≤ 9999 then some t.regular else none := by
  rw [← toRfc3339_regular, ← date_regular]
  by_cases hyear : 0 ≤ t.regular.date.year ∧ t.regular.date.year ≤ 9999
  · rw [ofRfc3339?, instant_of_year t.isRegular_regular hyear, if_pos hyear]
  · rw [ofRfc3339?, instant_of_not_year hyear, if_neg hyear]

end Instant

/-- Half a second after the leap second that would follow the first second of 1970 is written like
half a second after the next second, and is read back as that. -/
theorem DataType.convert_rfc3339_firstSecond :
    let t : Instant := ⟨0, 1500000000, by decide, by decide, by decide⟩
    let u : Instant := ⟨1, 500000000, by decide, by decide, by decide⟩
    convert .string (.timestampTz t) = .ok (.string "1970-01-01T00:00:01.500+00:00") ∧
      convert .timestampTz (.string "1970-01-01T00:00:01.500+00:00") = .ok (.timestampTz u) ∧
      Value.timestampTz u ≠ .timestampTz t := by
  refine ⟨by decide, by decide, by decide⟩

/-- **Instants survive the way through RFC 3339 in exactly the years that it has.** Every instant
converts to a text. If the date of the instant, which is the only one that exists on its day, lies
in the years 0 to 9999, then the text converts back to the regular instant of that text, and
otherwise it is refused. That is the instant itself, leap seconds included, unless it lies in a leap
second after any other second than the last one of a minute. Then the text is that of the next
second. -/
theorem DataType.convert_rfc3339 (t : Instant) :
    ∃ (s : String) (date : CivilDate) (u : Instant),
      (∀ d : CivilDate, d.isValid = true ∧ d.dayNumber = t.seconds / 86400 ↔ d = date) ∧
      convert .string (.timestampTz t) = .ok (.string s) ∧
      convert .timestampTz (.string s) =
        (if 0 ≤ date.year ∧ date.year ≤ 9999 then .ok (.timestampTz u)
        else .error (.invalidType (.string s) .timestampTz)) ∧
      (u = t ↔ (nanosPerSecond ≤ t.nanos → t.seconds % 60 = 59)) ∧
      (nanosPerSecond ≤ t.nanos → t.seconds % 60 ≠ 59 →
        u.seconds = t.seconds + 1 ∧ u.nanos + nanosPerSecond = t.nanos) := by
  refine ⟨t.toRfc3339, t.date, t.regular, fun d ↦ CivilDate.isValid_and_dayNumber_eq_iff, rfl, ?_,
    Instant.regular_eq_self_iff, fun hleap hne ↦ ?_⟩
  · rw [convert, Instant.ofRfc3339?_toRfc3339]
    by_cases hyear : 0 ≤ t.date.year ∧ t.date.year ≤ 9999
    · rw [if_pos hyear, if_pos hyear]
    · rw [if_neg hyear, if_neg hyear]
  · exact (Instant.regular_of_not_isRegular fun hregular ↦ hne (hregular hleap)).2

/-- A leap second is second 60. -/
example : Instant.toRfc3339 ⟨1483228799, 1500000000, by decide, by decide, by decide⟩ =
    "2016-12-31T23:59:60.500+00:00" := by
  decide

end LogicalQuery
