import LogicalQuery.Proofs.Outcome
import LogicalQuery.Proofs.Text.Digits

/-!
# What numerals denote

A numeral is an optional sign and at least one decimal digit, and denotes an integer (`IsNumeral`).
Reading within a range gives exactly the integers of the range that the whole text denotes
(`readInt_eq_ok_iff`). As a text is read from the left, and digits only ever make a number greater,
it is reported to be out of range as soon as it starts with a numeral of a number outside, whether
or not the rest belongs to a numeral (`readInt_eq_outOfRange_iff`).

So a numeral is read in the same way within every range that holds its number, and it makes no
difference whether an integer is read at 32 bits, or at 64 bits and narrowed
(`readInt32_eq_ok_iff_readInt64`).
-/

namespace LogicalQuery.Text

/-! ### Numerals -/

/-- The text is a numeral of the integer: an optional sign, and at least one decimal digit. -/
inductive IsNumeral : List Char → Int → Prop
  /-- A numeral without a sign. -/
  | unsigned {ds : List Char} (h : IsDigits ds) : IsNumeral ds (Nat.ofDigitChars 10 ds 0)
  /-- A numeral with a plus sign. -/
  | plus {ds : List Char} (h : IsDigits ds) : IsNumeral ('+' :: ds) (Nat.ofDigitChars 10 ds 0)
  /-- A numeral with a minus sign. -/
  | minus {ds : List Char} (h : IsDigits ds) : IsNumeral ('-' :: ds) (-Nat.ofDigitChars 10 ds 0)

variable {cs : List Char} {n : Int}

theorem not_isNumeral_nil : ¬IsNumeral [] n := by
  intro h
  cases h with
  | unsigned h => exact not_isDigits_nil h

/-- After the first character of a numeral, there are only digits. -/
theorem IsNumeral.isDigit (h : IsNumeral cs n) (c : Char) (hc : c ∈ cs.tail) :
    c.isDigit = true := by
  cases h with
  | unsigned h => exact h.2 c (List.mem_of_mem_tail hc)
  | plus h => exact h.2 c hc
  | minus h => exact h.2 c hc

/-- A numeral that starts with a minus sign denotes the opposite of what the digits after it do. -/
theorem isNumeral_minus_iff :
    IsNumeral ('-' :: cs) n ↔ IsDigits cs ∧ n = -Nat.ofDigitChars 10 cs 0 := by
  constructor
  · intro h
    cases h with
    | unsigned h => exact absurd (isDigits_cons_iff.1 h).1 (by decide)
    | minus h => exact ⟨h, rfl⟩
  · rintro ⟨h, rfl⟩
    exact .minus h

theorem isNumeral_plus_iff :
    IsNumeral ('+' :: cs) n ↔ IsDigits cs ∧ n = Nat.ofDigitChars 10 cs 0 := by
  constructor
  · intro h
    cases h with
    | unsigned h => exact absurd (isDigits_cons_iff.1 h).1 (by decide)
    | plus h => exact ⟨h, rfl⟩
  · rintro ⟨h, rfl⟩
    exact .plus h

theorem isNumeral_unsigned_iff (hminus : ∀ ds, cs ≠ '-' :: ds) (hplus : ∀ ds, cs ≠ '+' :: ds) :
    IsNumeral cs n ↔ IsDigits cs ∧ n = Nat.ofDigitChars 10 cs 0 := by
  constructor
  · intro h
    cases h with
    | unsigned h => exact ⟨h, rfl⟩
    | plus => exact absurd rfl (hplus _)
    | minus => exact absurd rfl (hminus _)
  · rintro ⟨h, rfl⟩
    exact .unsigned h

/-! ### Digits -/

theorem digitValue?_of_isDigit {c : Char} (h : c.isDigit = true) :
    digitValue? c = some (c.toNat - '0'.toNat) :=
  if_pos h

theorem digitValue?_of_not_isDigit {c : Char} (h : ¬c.isDigit = true) : digitValue? c = none :=
  if_neg h

/-- Digits are read to their end if they denote a number within the bound. -/
theorem readDigits_eq_ok_iff {bound n m : Nat} (hn : n ≤ bound) :
    readDigits bound n cs = .ok m ↔
      (∀ c ∈ cs, c.isDigit = true) ∧ Nat.ofDigitChars 10 cs n = m ∧ m ≤ bound := by
  induction cs generalizing n with
  | nil =>
    rw [readDigits, Except.ok.injEq]
    constructor
    · rintro rfl
      exact ⟨by simp, Nat.ofDigitChars_nil, hn⟩
    · exact fun h ↦ Nat.ofDigitChars_nil.symm.trans h.2.1
  | cons c cs ih =>
    rw [readDigits]
    by_cases hc : c.isDigit = true
    · rw [digitValue?_of_isDigit hc, List.forall_mem_cons, and_iff_right hc, Nat.ofDigitChars_cons]
      dsimp only
      split
      next hle => exact ih hle
      next hgt =>
        constructor
        · exact fun h ↦ nomatch h
        · rintro ⟨-, rfl, hm⟩
          exact absurd (Nat.le_trans (le_ofDigitChars cs _) hm) hgt
    · rw [digitValue?_of_not_isDigit hc]
      constructor
      · exact fun h ↦ nomatch h
      · exact fun h ↦ absurd (h.1 c List.mem_cons_self) hc

/-- Digits are out of range as soon as the first ones denote a number beyond the bound, whatever
comes after them. -/
theorem readDigits_eq_outOfRange_iff {bound n : Nat} (hn : n ≤ bound) :
    readDigits bound n cs = .error .outOfRange ↔
      ∃ ds, ds <+: cs ∧ (∀ c ∈ ds, c.isDigit = true) ∧ bound < Nat.ofDigitChars 10 ds n := by
  induction cs generalizing n with
  | nil =>
    rw [readDigits]
    constructor
    · exact fun h ↦ nomatch h
    · rintro ⟨ds, hds, -, hlt⟩
      rw [List.prefix_nil.1 hds, Nat.ofDigitChars_nil] at hlt
      exact absurd hlt (Nat.not_lt_of_le hn)
  | cons c cs ih =>
    -- A prefix that goes beyond the bound is not empty, as the number before it does not.
    have hbegins : (∃ ds, ds <+: c :: cs ∧ (∀ c ∈ ds, c.isDigit = true) ∧
          bound < Nat.ofDigitChars 10 ds n) ↔
        c.isDigit = true ∧ ∃ ds, ds <+: cs ∧ (∀ c ∈ ds, c.isDigit = true) ∧
          bound < Nat.ofDigitChars 10 ds (10 * n + (c.toNat - '0'.toNat)) := by
      constructor
      · rintro ⟨ds, hds, hdigit, hlt⟩
        cases ds with
        | nil => exact absurd hlt (Nat.not_lt_of_le hn)
        | cons d ds =>
          obtain ⟨rfl, htail⟩ := List.cons_prefix_cons.1 hds
          rw [List.forall_mem_cons] at hdigit
          exact ⟨hdigit.1, ds, htail, hdigit.2, hlt⟩
      · rintro ⟨hc, ds, hds, hdigit, hlt⟩
        exact ⟨c :: ds, List.cons_prefix_cons.2 ⟨rfl, hds⟩,
          List.forall_mem_cons.2 ⟨hc, hdigit⟩, hlt⟩
    rw [hbegins, readDigits]
    by_cases hc : c.isDigit = true
    · rw [digitValue?_of_isDigit hc, and_iff_right hc]
      dsimp only
      split
      next hle => exact ih hle
      next hgt =>
        refine iff_of_true rfl ⟨[], List.nil_prefix, by simp, ?_⟩
        rw [Nat.ofDigitChars_nil]
        exact Nat.lt_of_not_le hgt
    · rw [digitValue?_of_not_isDigit hc]
      exact iff_of_false (fun h ↦ nomatch h) fun h ↦ hc h.1

theorem readMagnitude_eq_ok_iff {bound m : Nat} :
    readMagnitude bound cs = .ok m ↔
      IsDigits cs ∧ Nat.ofDigitChars 10 cs 0 = m ∧ m ≤ bound := by
  cases cs with
  | nil => exact iff_of_false (fun h ↦ nomatch h) fun h ↦ not_isDigits_nil h.1
  | cons c cs =>
    rw [readMagnitude, readDigits_eq_ok_iff (Nat.zero_le bound), List.forall_mem_cons,
      isDigits_cons_iff]

theorem readMagnitude_eq_outOfRange_iff {bound : Nat} :
    readMagnitude bound cs = .error .outOfRange ↔
      ∃ ds, ds <+: cs ∧ IsDigits ds ∧ bound < Nat.ofDigitChars 10 ds 0 := by
  have hnonempty {ds : List Char} (h : bound < Nat.ofDigitChars 10 ds 0) : ds ≠ [] := by
    rintro rfl
    exact Nat.not_lt_zero _ h
  cases cs with
  | nil =>
    refine iff_of_false (fun h ↦ nomatch h) ?_
    rintro ⟨ds, hds, -, hlt⟩
    exact hnonempty hlt (List.prefix_nil.1 hds)
  | cons c cs =>
    rw [readMagnitude, readDigits_eq_outOfRange_iff (Nat.zero_le bound)]
    constructor
    · rintro ⟨ds, hds, hdigit, hlt⟩
      exact ⟨ds, hds, ⟨hnonempty hlt, hdigit⟩, hlt⟩
    · rintro ⟨ds, hds, ⟨-, hdigit⟩, hlt⟩
      exact ⟨ds, hds, hdigit, hlt⟩

/-! ### Integers -/

variable {s : String} {low high : Int}

/-- The opposite of a number that is read, as an integer. -/
theorem map_neg_eq (r : Except NumeralFault Nat) :
    (do let m ← r; return (m : Int)).map (fun k : Int ↦ -k) = r.map fun m : Nat ↦ -(m : Int) := by
  cases r <;> rfl

/-- A text that starts with a sign starts with a numeral if digits come next. -/
theorem exists_prefix_sign_iff {c : Char} {f : Nat → Int} {P : Int → Prop}
    (hc : ∀ ds n, IsNumeral (c :: ds) n ↔ IsDigits ds ∧ n = f (Nat.ofDigitChars 10 ds 0)) :
    (∃ p n, p <+: c :: cs ∧ IsNumeral p n ∧ P n) ↔
      ∃ ds, ds <+: cs ∧ IsDigits ds ∧ P (f (Nat.ofDigitChars 10 ds 0)) := by
  constructor
  · rintro ⟨p, n, hp, hn, hP⟩
    rcases List.prefix_cons_iff.1 hp with rfl | ⟨ds, rfl, hds⟩
    · exact absurd hn not_isNumeral_nil
    · obtain ⟨hdigits, rfl⟩ := (hc ds n).1 hn
      exact ⟨ds, hds, hdigits, hP⟩
  · rintro ⟨ds, hds, hdigits, hP⟩
    exact ⟨c :: ds, _, List.cons_prefix_cons.2 ⟨rfl, hds⟩, (hc ds _).2 ⟨hdigits, rfl⟩, hP⟩

theorem exists_prefix_unsigned_iff (hminus : ∀ ds, cs ≠ '-' :: ds) (hplus : ∀ ds, cs ≠ '+' :: ds)
    {P : Int → Prop} :
    (∃ p n, p <+: cs ∧ IsNumeral p n ∧ P n) ↔
      ∃ ds, ds <+: cs ∧ IsDigits ds ∧ P (Nat.ofDigitChars 10 ds 0) := by
  constructor
  · rintro ⟨p, n, hp, hn, hP⟩
    obtain ⟨rest, rfl⟩ := hp
    cases hn with
    | unsigned hdigits => exact ⟨p, List.prefix_append p rest, hdigits, hP⟩
    | plus => exact absurd rfl (hplus _)
    | minus => exact absurd rfl (hminus _)
  · rintro ⟨ds, hds, hdigits, hP⟩
    exact ⟨ds, _, hds, .unsigned hdigits, hP⟩

/-- Reading an integer is reading a magnitude after the sign, which tells what number is meant (`f`)
and which magnitudes are in range. -/
theorem exists_readInt_eq (hlow : low ≤ 0) (hhigh : 0 ≤ high) (s : String) :
    ∃ (f : Nat → Int) (bound : Nat) (tail : List Char),
      readInt low high s = (readMagnitude bound tail).map f ∧
      (∀ m, m ≤ bound ↔ low ≤ f m ∧ f m ≤ high) ∧
      (∀ n, IsNumeral s.toList n ↔ IsDigits tail ∧ n = f (Nat.ofDigitChars 10 tail 0)) ∧
      ∀ P : Int → Prop, (∃ p n, p <+: s.toList ∧ IsNumeral p n ∧ P n) ↔
        ∃ ds, ds <+: tail ∧ IsDigits ds ∧ P (f (Nat.ofDigitChars 10 ds 0)) := by
  have hnat (m : Nat) : m ≤ high.toNat ↔ low ≤ Int.ofNat m ∧ Int.ofNat m ≤ high := by
    rw [Int.ofNat_eq_natCast]
    omega
  unfold readInt
  split
  next cs hs =>
    rw [hs]
    have hneg (m : Nat) : m ≤ low.natAbs ↔ low ≤ -(m : Int) ∧ -(m : Int) ≤ high := by omega
    exact ⟨fun m ↦ -m, _, cs, map_neg_eq _, hneg, fun n ↦ isNumeral_minus_iff,
      fun P ↦ exists_prefix_sign_iff (f := fun m ↦ -m) fun ds n ↦ isNumeral_minus_iff⟩
  next cs hs =>
    rw [hs]
    exact ⟨Int.ofNat, _, cs, rfl, hnat, fun n ↦ isNumeral_plus_iff,
      fun P ↦ exists_prefix_sign_iff (f := Int.ofNat) fun ds n ↦ isNumeral_plus_iff⟩
  next hminus hplus =>
    exact ⟨Int.ofNat, _, s.toList, rfl, hnat, fun n ↦ isNumeral_unsigned_iff hminus hplus,
      fun P ↦ exists_prefix_unsigned_iff hminus hplus⟩

/-- **Exactly the integers of the range are read, and each from exactly its numerals.** -/
theorem readInt_eq_ok_iff (hlow : low ≤ 0) (hhigh : 0 ≤ high) :
    readInt low high s = .ok n ↔ IsNumeral s.toList n ∧ low ≤ n ∧ n ≤ high := by
  obtain ⟨f, bound, tail, hread, hrange, hnumeral, -⟩ := exists_readInt_eq hlow hhigh s
  rw [hread, map_eq_ok_iff, hnumeral]
  constructor
  · rintro ⟨m, hm, rfl⟩
    obtain ⟨hdigits, rfl, hle⟩ := readMagnitude_eq_ok_iff.1 hm
    exact ⟨⟨hdigits, rfl⟩, (hrange _).1 hle⟩
  · rintro ⟨⟨hdigits, rfl⟩, hn⟩
    exact ⟨_, readMagnitude_eq_ok_iff.2 ⟨hdigits, rfl, (hrange _).2 hn⟩, rfl⟩

/-- **A text is out of range if and only if it starts with a numeral of a number outside.** -/
theorem readInt_eq_outOfRange_iff (hlow : low ≤ 0) (hhigh : 0 ≤ high) :
    readInt low high s = .error .outOfRange ↔
      ∃ p n, p <+: s.toList ∧ IsNumeral p n ∧ ¬(low ≤ n ∧ n ≤ high) := by
  obtain ⟨f, bound, tail, hread, hrange, -, hbegins⟩ := exists_readInt_eq hlow hhigh s
  rw [hread, map_eq_error_iff, readMagnitude_eq_outOfRange_iff, hbegins]
  simp only [← Nat.not_le, hrange]

/-! ### Machine integers -/

/-- A machine integer is read if the integer that it denotes is read. -/
theorem map_readInt_eq_ok_iff {α : Type} {f : Int → α} {g : α → Int} (hlow : low ≤ 0)
    (hhigh : 0 ≤ high) (hrange : ∀ a, low ≤ g a ∧ g a ≤ high) (hfg : ∀ a, f (g a) = a)
    (hgf : ∀ n, low ≤ n → n ≤ high → g (f n) = n) {a : α} :
    (readInt low high s).map f = .ok a ↔ IsNumeral s.toList (g a) := by
  rw [map_eq_ok_iff]
  constructor
  · rintro ⟨n, hn, rfl⟩
    obtain ⟨hnumeral, hlow', hhigh'⟩ := (readInt_eq_ok_iff hlow hhigh).1 hn
    rwa [hgf n hlow' hhigh']
  · exact fun h ↦ ⟨g a, (readInt_eq_ok_iff hlow hhigh).2 ⟨h, hrange a⟩, hfg a⟩

/-- A 32-bit integer is read from exactly its numerals. -/
theorem readInt32_eq_ok_iff {m : Int32} : readInt32 s = .ok m ↔ IsNumeral s.toList m.toInt := by
  have hrange (m : Int32) : Int32.minValue.toInt ≤ m.toInt ∧ m.toInt ≤ Int32.maxValue.toInt :=
    ⟨m.le_toInt, Int.le_sub_one_of_lt m.toInt_lt⟩
  exact map_readInt_eq_ok_iff (by decide) (by decide) hrange Int32.ofInt_toInt fun _ hlow hhigh ↦
    Int32.toInt_ofInt_of_le hlow (Int.lt_of_le_of_lt hhigh (by decide))

/-- A 64-bit integer is read from exactly its numerals. -/
theorem readInt64_eq_ok_iff {m : Int64} : readInt64 s = .ok m ↔ IsNumeral s.toList m.toInt := by
  have hrange (m : Int64) : Int64.minValue.toInt ≤ m.toInt ∧ m.toInt ≤ Int64.maxValue.toInt :=
    ⟨m.le_toInt, Int.le_sub_one_of_lt m.toInt_lt⟩
  exact map_readInt_eq_ok_iff (by decide) (by decide) hrange Int64.ofInt_toInt fun _ hlow hhigh ↦
    Int64.toInt_ofInt_of_le hlow (Int.lt_of_le_of_lt hhigh (by decide))

/-- A 32-bit integer is read if and only if the same 64-bit integer is read. -/
theorem readInt32_eq_ok_iff_readInt64 {m : Int32} :
    readInt32 s = .ok m ↔ ∃ n : Int64, readInt64 s = .ok n ∧ n.toInt = m.toInt := by
  simp only [readInt32_eq_ok_iff, readInt64_eq_ok_iff]
  constructor
  · intro h
    exact ⟨m.toInt64, by rwa [Int32.toInt_toInt64], Int32.toInt_toInt64 m⟩
  · rintro ⟨n, hn, heq⟩
    rwa [← heq]

/-! ### Writing -/

/-- What is written for an integer is a numeral of it. -/
theorem isNumeral_toString (n : Int) : IsNumeral (toString n).toList n := by
  have hrepr (m : Nat) : (Nat.repr m).toList = Nat.toDigits 10 m := by
    rw [Nat.repr_eq_ofList_toDigits, String.toList_ofList]
  cases n with
  | ofNat m =>
    have h := IsNumeral.unsigned (isDigits_toDigits m)
    rwa [Nat.ofDigitChars_ten_toDigits, ← hrepr] at h
  | negSucc m =>
    have htext : (toString (Int.negSucc m)).toList = '-' :: Nat.toDigits 10 (m + 1) := by
      rw [show toString (Int.negSucc m) = "-" ++ Nat.repr (m + 1) from rfl, String.toList_append,
        hrepr]
      rfl
    have h := IsNumeral.minus (isDigits_toDigits (m + 1))
    rwa [Nat.ofDigitChars_ten_toDigits, ← htext] at h

theorem readInt32_toString (n : Int32) : readInt32 (toString n.toInt) = .ok n :=
  readInt32_eq_ok_iff.2 (isNumeral_toString n.toInt)

theorem readInt64_toString (n : Int64) : readInt64 (toString n.toInt) = .ok n :=
  readInt64_eq_ok_iff.2 (isNumeral_toString n.toInt)

end LogicalQuery.Text
