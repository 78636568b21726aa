import LogicalQuery.Binary64.Reading
import LogicalQuery.Proofs.Binary64.Shortest
import LogicalQuery.Proofs.Text.Digits

/-!
# Reading decimals

A sequence of digits with an exponent is read as the number nearest to the decimal it denotes, and
the limits beyond which nothing is computed do not change that. What is read off a text is then the
nearest number to the decimal that the text denotes.
-/

namespace LogicalQuery

open Text

variable {negative : Bool} {n l : Nat} {e : Int}

/-! ### Decimals outside the range -/

theorem Decimal.nearest_zero (negative : Bool) (e : Int) :
    nearest negative ⟨0, e⟩ = .zero negative := by
  refine Binary64.ofRatio_eq_zero negative (Nat.pow_pos (by decide)) ?_
  generalize Nat.pow 2 1074 = p
  rw [Nat.zero_mul, Nat.zero_mul]
  exact Nat.zero_le _

/-- Far below the least positive number, decimals are rounded to zero. -/
theorem Decimal.nearest_eq_zero (hn : n < 10 ^ l) (he : l + e < -400) :
    nearest negative ⟨n, e⟩ = .zero negative := by
  obtain ⟨b, hlimit, hb⟩ : ∃ b : Nat, b = 400 ∧ 2 * Nat.pow 2 1074 ≤ 10 ^ b :=
    ⟨400, rfl, by decide +kernel⟩
  have hexponent : e = (0 : Nat) - ((-e).toNat : Nat) := by omega
  rw [hexponent, nearest_sub]
  refine Binary64.ofRatio_eq_zero negative (Nat.pow_pos (by decide)) ?_
  generalize Nat.pow 2 1074 = p at hb ⊢
  calc 2 * (n * 10 ^ 0 * p) = n * (2 * p) := by
        rw [Nat.pow_zero, Nat.mul_one, Nat.mul_left_comm]
    _ ≤ 10 ^ l * 10 ^ b := Nat.mul_le_mul hn.le hb
    _ = 10 ^ (l + b) := (Nat.pow_add ..).symm
    _ ≤ 10 ^ (-e).toNat := Nat.pow_le_pow_right (by decide) (by omega)

/-- Far above the finite numbers, decimals are rounded to infinity. -/
theorem Decimal.nearest_eq_infinity (hn : 10 ^ l ≤ n) (he : 400 ≤ l + e) :
    nearest negative ⟨n, e⟩ = .infinity negative := by
  obtain ⟨b, hlimit, hb⟩ : ∃ b : Nat, b = 400 ∧
      Binary64.units Binary64.infinityMagnitude ≤ 10 ^ b * Nat.pow 2 1074 :=
    ⟨400, rfl, by decide +kernel⟩
  have hexponent : e = (e.toNat : Nat) - ((-e).toNat : Nat) := by omega
  rw [hexponent, nearest_sub]
  refine Binary64.ofRatio_eq_infinity negative (Nat.pow_pos (by decide)) ?_
  generalize Nat.pow 2 1074 = p at hb ⊢
  calc Binary64.units Binary64.infinityMagnitude * 10 ^ (-e).toNat
      ≤ 10 ^ b * p * 10 ^ (-e).toNat := Nat.mul_le_mul_right _ hb
    _ = 10 ^ (b + (-e).toNat) * p := by rw [Nat.mul_right_comm, Nat.pow_add]
    _ ≤ 10 ^ (l + e.toNat) * p :=
      Nat.mul_le_mul_right _ (Nat.pow_le_pow_right (by decide) (by omega))
    _ ≤ n * 10 ^ e.toNat * p := by
      rw [Nat.pow_add]
      exact Nat.mul_le_mul_right _ (Nat.mul_le_mul_right _ hn)

namespace Binary64

variable {cs : List Char}

/-- **Digits with an exponent are read as the number nearest to the decimal.** -/
theorem ofDecimal_eq_nearest (hcs : ∀ c ∈ cs, c.isDigit = true) :
    ofDecimal negative cs e = Decimal.nearest negative ⟨Nat.ofDigitChars 10 cs 0, e⟩ := by
  have hdigits : ∀ c ∈ cs.dropWhile (· == '0'), c.isDigit = true := fun c hc ↦
    hcs c (cs.dropWhile_suffix _ |>.mem hc)
  have hhead := List.head?_dropWhile_not (· == '0') cs
  rw [← ofDigitChars_dropWhile_zero cs, ofDecimal]
  dsimp only
  generalize cs.dropWhile (· == '0') = significant at hdigits hhead ⊢
  split
  next hlow =>
    rw [Bool.or_eq_true, decide_eq_true_eq, List.isEmpty_iff] at hlow
    rcases hlow with hnil | hlow
    · rw [hnil]
      exact (Decimal.nearest_zero negative e).symm
    · exact (Decimal.nearest_eq_zero (ofDigitChars_lt hdigits) hlow).symm
  next hlow =>
    split
    next hhigh =>
      obtain _ | ⟨c, cs⟩ := significant
      · exact absurd rfl hlow
      · have hc : c ≠ '0' := by simpa using hhead
        have hvalue := pow_le_ofDigitChars (hdigits c List.mem_cons_self) hc cs
        rw [List.length_cons] at hhigh
        exact (Decimal.nearest_eq_infinity hvalue (by omega)).symm
    next => rfl

/-! ### Texts of decimals -/

variable {ds fs rest : List Char} {d : Decimal}

theorem spanDigits_append (hds : ∀ c ∈ ds, c.isDigit = true) (hrest : EndsDigits rest) :
    spanDigits (ds ++ rest) = (ds, rest) := by
  rw [spanDigits, takeWhile_digits_append hds hrest, dropWhile_digits_append hds hrest]

theorem readExponent?_cons (negative : Bool) (hds : IsDigits ds) :
    readExponent? ('e' :: (if negative then '-' else '+') :: ds) =
      some (if negative then -(Nat.ofDigitChars 10 ds 0 : Int) else Nat.ofDigitChars 10 ds 0) := by
  have hall : (!ds.isEmpty && ds.all Char.isDigit) = true := by
    simpa [IsDigits] using hds
  cases negative <;> simp [readExponent?, spanSign, hall]

/-- An exponent goes on with neither a digit nor a point. -/
theorem ends_of_readExponent? (h : readExponent? rest = some e) :
    EndsDigits rest ∧ rest.head? ≠ some '.' := by
  cases rest with
  | nil => exact ⟨rfl, nofun⟩
  | cons c cs =>
    rw [readExponent?] at h
    split at h
    next hc => rcases hc with rfl | rfl <;> exact ⟨rfl, by simp⟩
    next => cases h

/-- Digits without a point are read with the exponent that follows. -/
theorem readDecimal?_digits (hds : IsDigits ds) (he : readExponent? rest = some e) :
    readDecimal? (ds ++ rest) = some (ds, e) := by
  obtain ⟨hends, hpoint⟩ := ends_of_readExponent? he
  have hempty : ds.isEmpty = false := List.isEmpty_eq_false_iff.2 hds.1
  simp only [readDecimal?, spanDigits_append hds.2 hends]
  split
  next => exact absurd rfl hpoint
  next => simp [hempty, he]

/-- Digits around a point are read with the exponent that follows, lowered by the digits behind the
point. -/
theorem readDecimal?_point (hds : IsDigits ds) (hfs : ∀ c ∈ fs, c.isDigit = true)
    (he : readExponent? rest = some e) :
    readDecimal? (ds ++ '.' :: (fs ++ rest)) = some (ds ++ fs, e - fs.length) := by
  have hempty : ds.isEmpty = false := List.isEmpty_eq_false_iff.2 hds.1
  have hwhole : spanDigits (ds ++ '.' :: (fs ++ rest)) = (ds, '.' :: (fs ++ rest)) :=
    spanDigits_append hds.2 (endsDigits_cons rfl)
  have hfraction := spanDigits_append hfs (ends_of_readExponent? he).1
  simp [readDecimal?, hwhole, hfraction, hempty, he]

/-- The text is read as a decimal of the value of `d`, up to rounding. -/
def ReadsAs (cs : List Char) (d : Decimal) : Prop :=
  ∃ ds e, readDecimal? cs = some (ds, e) ∧ (∀ c ∈ ds, c.isDigit = true) ∧
    ∀ negative, Decimal.nearest negative ⟨Nat.ofDigitChars 10 ds 0, e⟩ = d.nearest negative

namespace ReadsAs

theorem of_digits (hds : IsDigits ds) (he : readExponent? rest = some e) :
    ReadsAs (ds ++ rest) ⟨Nat.ofDigitChars 10 ds 0, e⟩ :=
  ⟨ds, e, readDecimal?_digits hds he, hds.2, fun _ ↦ rfl⟩

theorem of_point (hds : IsDigits ds) (hfs : ∀ c ∈ fs, c.isDigit = true)
    (he : readExponent? rest = some e) :
    ReadsAs (ds ++ '.' :: (fs ++ rest)) ⟨Nat.ofDigitChars 10 (ds ++ fs) 0, e - fs.length⟩ :=
  ⟨ds ++ fs, _, readDecimal?_point hds hfs he, List.forall_mem_append.2 ⟨hds.2, hfs⟩, fun _ ↦ rfl⟩

/-- Zeros behind the digits stand for the exponent. -/
theorem append_zeros (hds : IsDigits ds) (k : Nat) :
    ReadsAs (ds ++ List.replicate k '0') ⟨Nat.ofDigitChars 10 ds 0, k⟩ := by
  have hdigits : IsDigits (ds ++ List.replicate k '0') :=
    ⟨List.append_ne_nil_of_left_ne_nil hds.1 _,
      List.forall_mem_append.2 ⟨hds.2, isDigit_of_mem_zeros⟩⟩
  have hread := readDecimal?_digits hdigits (rfl : readExponent? [] = some 0)
  rw [List.append_nil] at hread
  refine ⟨_, _, hread, hdigits.2, fun negative ↦ ?_⟩
  rw [Nat.ofDigitChars_append, Nat.ofDigitChars_replicate_zero, Nat.mul_comm,
    Decimal.nearest_mul_pow, Int.zero_add]

/-- A point among the digits stands for the exponent. -/
theorem split_digits (hds : IsDigits ds) {i : Nat} (hi : 0 < i) :
    ReadsAs (ds.take i ++ '.' :: ds.drop i)
      ⟨Nat.ofDigitChars 10 ds 0, -((ds.length - i : Nat) : Int)⟩ := by
  have hwhole : IsDigits (ds.take i) := by
    refine ⟨fun hnil ↦ ?_, fun c hc ↦ hds.2 c (List.mem_of_mem_take hc)⟩
    rcases List.take_eq_nil_iff.1 hnil with hi' | hnil
    · exact hi.ne' hi'
    · exact hds.1 hnil
  have hfraction : ∀ c ∈ ds.drop i, c.isDigit = true := fun c hc ↦ hds.2 c (List.mem_of_mem_drop hc)
  have h := of_point hwhole hfraction (rfl : readExponent? [] = some 0)
  rwa [List.append_nil, List.take_append_drop, List.length_drop, Int.zero_sub] at h

/-- A point and zeros in front of the digits stand for the exponent. -/
theorem point_zeros (hds : IsDigits ds) (k : Nat) :
    ReadsAs ('0' :: '.' :: (List.replicate k '0' ++ ds))
      ⟨Nat.ofDigitChars 10 ds 0, -((k + ds.length : Nat) : Int)⟩ := by
  have hfraction := (isDigits_zeros_append hds k).2
  have hwhole : IsDigits (List.replicate 1 '0') := ⟨List.cons_ne_nil _ _, isDigit_of_mem_zeros⟩
  have h := of_point hwhole hfraction (rfl : readExponent? [] = some 0)
  rwa [List.append_nil, ofDigitChars_replicate_append, ofDigitChars_replicate_append,
    List.length_append, List.length_replicate, Int.zero_sub] at h

/-- One digit before the point, which is missing where no digit comes behind it. -/
theorem leading_digit {c : Char} (hds : IsDigits (c :: ds)) (he : readExponent? rest = some e) :
    ReadsAs ([c] ++ (if ds.isEmpty then [] else '.' :: ds) ++ rest)
      ⟨Nat.ofDigitChars 10 (c :: ds) 0, e - ds.length⟩ := by
  cases ds with
  | nil =>
    have h := of_digits hds he
    rwa [← Int.sub_zero e] at h
  | cons d ds =>
    obtain ⟨hc, hds⟩ := isDigits_cons_iff.1 hds
    exact of_point ⟨List.cons_ne_nil c [], List.forall_mem_singleton.2 hc⟩ hds he

end ReadsAs

/-- A text that is read as a decimal has no sign. -/
theorem spanSign_of_readDecimal? {r : List Char × Int} (h : readDecimal? cs = some r) :
    spanSign cs = (false, cs) := by
  unfold spanSign
  split
  next => cases h
  next => cases h
  next => rfl

/-- A sign and the text of a decimal are read as the nearest number of that sign. -/
theorem ReadsAs.read?_eq (h : ReadsAs cs d) :
    read? (String.ofList ((if negative then ['-'] else []) ++ cs)) = some (d.nearest negative) := by
  obtain ⟨ds, e, hread, hds, hvalue⟩ := h
  have hsign : spanSign ((if negative then ['-'] else []) ++ cs) = (negative, cs) := by
    cases negative
    · exact spanSign_of_readDecimal? hread
    · rfl
  rw [read?, String.toList_ofList, hsign]
  dsimp only
  rw [hread]
  exact congrArg some ((ofDecimal_eq_nearest hds).trans (hvalue negative))

end Binary64

end LogicalQuery
