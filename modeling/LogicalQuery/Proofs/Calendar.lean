import LogicalQuery.Calendar
import Mathlib.Algebra.Ring.Int.Defs
import Mathlib.Algebra.Ring.Nat

/-!
# Days and dates

Every day has exactly one date: the date of a day exists and has the number of the day, and a date
that exists is the date of its day (`CivilDate.isValid_and_dayNumber_eq_iff`). Years and months are
treated in the same way: a day lies between the start and the end of exactly one of them.
-/

namespace LogicalQuery.CivilDate

/-! ### Years -/

theorem sum_monthLengths (year : Int) :
    (monthLengths year).sum = if isLeapYear year then 366 else 365 := by
  unfold monthLengths
  split <;> rfl

/-- A year starts when the months of the year before it are over. -/
theorem daysBeforeYear_succ (year : Int) :
    daysBeforeYear (year + 1) = daysBeforeYear year + (monthLengths year).sum := by
  rw [sum_monthLengths]
  unfold daysBeforeYear isLeapYear
  split
  next h =>
    simp only [Bool.and_eq_true, Bool.or_eq_true, beq_iff_eq, bne_iff_ne] at h
    omega
  next h =>
    simp only [Bool.and_eq_true, Bool.or_eq_true, beq_iff_eq, bne_iff_ne] at h
    omega

theorem daysBeforeYear_mono {y z : Int} (h : y ≤ z) : daysBeforeYear y ≤ daysBeforeYear z := by
  unfold daysBeforeYear
  omega

/-- The year of a day has started, and is not over. -/
theorem yearOfDay_spec (n : Int) :
    daysBeforeYear (yearOfDay n) ≤ n ∧ n < daysBeforeYear (yearOfDay n + 1) := by
  unfold yearOfDay
  dsimp only
  split
  next => unfold daysBeforeYear at *; omega
  next =>
    split
    next => unfold daysBeforeYear at *; omega
    next => unfold daysBeforeYear at *; omega

theorem yearOfDay_eq {n year : Int} (hstart : daysBeforeYear year ≤ n)
    (hend : n < daysBeforeYear (year + 1)) : yearOfDay n = year := by
  obtain ⟨hstart', hend'⟩ := yearOfDay_spec n
  rcases Int.lt_trichotomy (yearOfDay n) year with hlt | heq | hgt
  · have := daysBeforeYear_mono (show yearOfDay n + 1 ≤ year from hlt)
    omega
  · exact heq
  · have := daysBeforeYear_mono (show year + 1 ≤ yearOfDay n from hgt)
    omega

/-! ### Months -/

theorem splitMonths_cons (length : Nat) (lengths : List Nat) (day : Nat) :
    splitMonths (length :: lengths) day =
      if day < length then (0, day)
      else ((splitMonths lengths (day - length)).1 + 1, (splitMonths lengths (day - length)).2) :=
  rfl

/-- A day within months lies in one of them, and comes after the months before that one. -/
theorem splitMonths_spec {lengths : List Nat} {day : Nat} (h : day < lengths.sum) :
    ∃ length, lengths[(splitMonths lengths day).1]? = some length ∧
      (splitMonths lengths day).2 < length ∧
      (lengths.take (splitMonths lengths day).1).sum + (splitMonths lengths day).2 = day := by
  induction lengths generalizing day with
  | nil => exact absurd h (Nat.not_lt_zero day)
  | cons length lengths ih =>
    rw [List.sum_cons] at h
    rw [splitMonths_cons]
    split
    next hlt => exact ⟨length, rfl, hlt, by simp⟩
    next hge =>
      obtain ⟨length', hget, hlt, hsum⟩ := ih (show day - length < lengths.sum by omega)
      refine ⟨length', hget, hlt, ?_⟩
      rw [List.take_succ_cons, List.sum_cons]
      omega

theorem splitMonths_eq {lengths : List Nat} {month length rest : Nat}
    (hget : lengths[month]? = some length) (hlt : rest < length) :
    splitMonths lengths ((lengths.take month).sum + rest) = (month, rest) := by
  induction lengths generalizing month with
  | nil => exact nomatch hget
  | cons first lengths ih =>
    cases month with
    | zero =>
      obtain rfl := Option.some.inj hget
      rw [splitMonths, if_pos (by simpa using hlt)]
      simp
    | succ month =>
      rw [List.take_succ_cons, List.sum_cons, splitMonths_cons, if_neg (by omega),
        show first + (lengths.take month).sum + rest - first = (lengths.take month).sum + rest by
          omega,
        ih hget]

/-- A month is over before the months are. -/
theorem sum_take_add_le {lengths : List Nat} {month length : Nat}
    (hget : lengths[month]? = some length) : (lengths.take month).sum + length ≤ lengths.sum := by
  obtain ⟨hlt, rfl⟩ := List.getElem?_eq_some_iff.1 hget
  calc (lengths.take month).sum + lengths[month]
      ≤ (lengths.take month).sum + (lengths.drop month).sum := by
        rw [List.drop_eq_getElem_cons hlt, List.sum_cons]
        omega
    _ = lengths.sum := by rw [← List.sum_append_nat, List.take_append_drop]

/-! ### Dates -/

theorem isValid_iff {d : CivilDate} :
    d.isValid = true ↔ 1 ≤ d.month ∧ 1 ≤ d.day ∧
      ∃ length, (monthLengths d.year)[d.month - 1]? = some length ∧ d.day ≤ length := by
  unfold isValid
  cases (monthLengths d.year)[d.month - 1]? with
  | none => simp
  | some length => simp [and_assoc]

/-- The month and the day of a date that exists have two digits. -/
theorem le_of_isValid {d : CivilDate} (h : d.isValid = true) : d.month ≤ 12 ∧ d.day ≤ 31 := by
  obtain ⟨hmonth, hday, length, hget, hle⟩ := isValid_iff.1 h
  have hlengths : ∀ length ∈ monthLengths d.year, length ≤ 31 := by
    unfold monthLengths
    split <;> decide
  have hlt : d.month - 1 < 12 := (List.getElem?_eq_some_iff.1 hget).1
  have := hlengths length (List.mem_of_getElem? hget)
  omega

/-- The number of a day is counted from the start of the year. -/
theorem dayNumber_eq (d : CivilDate) :
    d.dayNumber = daysBeforeYear d.year + ((monthLengths d.year).take (d.month - 1)).sum + d.day - 1
      - epochDays := by
  rw [dayNumber, List.sum_eq_foldl]

/-- The date of a day exists, and has the number of the day. -/
theorem ofDayNumber_spec (n : Int) :
    (ofDayNumber n).isValid = true ∧ (ofDayNumber n).dayNumber = n := by
  obtain ⟨hstart, hend⟩ := yearOfDay_spec (n + epochDays)
  rw [daysBeforeYear_succ] at hend
  have hday : (n + epochDays - daysBeforeYear (yearOfDay (n + epochDays))).toNat <
      (monthLengths (yearOfDay (n + epochDays))).sum := by omega
  obtain ⟨length, hget, hlt, hsum⟩ := splitMonths_spec hday
  constructor
  · exact isValid_iff.2 ⟨Nat.le_add_left .., Nat.le_add_left .., length, hget, hlt⟩
  · rw [dayNumber_eq]
    simp only [ofDayNumber, Nat.add_sub_cancel]
    omega

/-- A date that exists is the date of its day. -/
theorem ofDayNumber_dayNumber {d : CivilDate} (h : d.isValid = true) :
    ofDayNumber d.dayNumber = d := by
  obtain ⟨hmonth, hday, length, hget, hle⟩ := isValid_iff.1 h
  have hsum := sum_take_add_le hget
  have hdays := dayNumber_eq d
  generalize hbefore : ((monthLengths d.year).take (d.month - 1)).sum = before at hsum hdays
  have hyear : yearOfDay (d.dayNumber + epochDays) = d.year := by
    refine yearOfDay_eq (by omega) ?_
    rw [daysBeforeYear_succ]
    omega
  have hsplit := splitMonths_eq hget (show d.day - 1 < length by omega)
  have hrest : (d.dayNumber + epochDays - daysBeforeYear d.year).toNat = before + (d.day - 1) := by
    omega
  rw [hbefore, ← hrest] at hsplit
  simp only [ofDayNumber, hyear, hsplit, Nat.sub_add_cancel hmonth, Nat.sub_add_cancel hday]

/-- **Every day has exactly one date.** -/
theorem isValid_and_dayNumber_eq_iff {d : CivilDate} {n : Int} :
    d.isValid = true ∧ d.dayNumber = n ↔ d = ofDayNumber n := by
  constructor
  · rintro ⟨h, rfl⟩
    exact (ofDayNumber_dayNumber h).symm
  · rintro rfl
    exact ofDayNumber_spec n

end LogicalQuery.CivilDate
