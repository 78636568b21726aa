import LogicalQuery.Text.Numeral
import Mathlib.Algebra.Ring.Nat

/-!
# Sequences of digits

What a sequence of decimal digits denotes, and where it ends within a longer text.
-/

namespace LogicalQuery.Text

/-- The text is a sequence of at least one decimal digit. -/
def IsDigits (cs : List Char) : Prop := cs ≠ [] ∧ ∀ c ∈ cs, c.isDigit = true

variable {cs ds : List Char}

theorem not_isDigits_nil : ¬IsDigits [] := fun h ↦ h.1 rfl

theorem isDigits_cons_iff {c : Char} :
    IsDigits (c :: cs) ↔ c.isDigit = true ∧ ∀ d ∈ cs, d.isDigit = true := by
  simp [IsDigits]

theorem isDigits_toDigits (n : Nat) : IsDigits (Nat.toDigits 10 n) :=
  ⟨Nat.toDigits_ne_nil, fun _ ↦ Nat.isDigit_of_mem_toDigits (by decide) (by decide)⟩

theorem isDigit_of_mem_zeros {k : Nat} (c : Char) (hc : c ∈ List.replicate k '0') :
    c.isDigit = true :=
  List.eq_of_mem_replicate hc ▸ rfl

theorem isDigits_zeros_append (hds : IsDigits ds) (k : Nat) :
    IsDigits (List.replicate k '0' ++ ds) :=
  ⟨List.append_ne_nil_of_right_ne_nil _ hds.1,
    List.forall_mem_append.2 ⟨isDigit_of_mem_zeros, hds.2⟩⟩

/-- Digits only ever make a number greater. -/
theorem le_ofDigitChars (cs : List Char) (n : Nat) : n ≤ Nat.ofDigitChars 10 cs n := by
  rw [Nat.ofDigitChars_eq_ofDigitChars_zero]
  calc n ≤ 10 ^ cs.length * n := Nat.le_mul_of_pos_left n (Nat.pow_pos (by decide))
    _ ≤ 10 ^ cs.length * n + Nat.ofDigitChars 10 cs 0 := Nat.le_add_right ..

/-- Zeros in front do not count. -/
theorem ofDigitChars_replicate_append (k : Nat) (cs : List Char) :
    Nat.ofDigitChars 10 (List.replicate k '0' ++ cs) 0 = Nat.ofDigitChars 10 cs 0 := by
  rw [Nat.ofDigitChars_append, Nat.ofDigitChars_replicate_zero, Nat.mul_zero]

theorem ofDigitChars_dropWhile_zero (cs : List Char) :
    Nat.ofDigitChars 10 (cs.dropWhile (· == '0')) 0 = Nat.ofDigitChars 10 cs 0 := by
  induction cs with
  | nil => rfl
  | cons c cs ih =>
    rw [List.dropWhile_cons]
    split
    next hzero =>
      rw [ih, beq_iff_eq.1 hzero, Nat.ofDigitChars_cons]
      rfl
    next => rfl

/-- As many digits denote less than the power of ten. -/
theorem ofDigitChars_lt (hcs : ∀ c ∈ cs, c.isDigit = true) :
    Nat.ofDigitChars 10 cs 0 < 10 ^ cs.length := by
  induction cs with
  | nil => exact Nat.zero_lt_one
  | cons c cs ih =>
    obtain ⟨hc, hcs⟩ := List.forall_mem_cons.1 hcs
    have hdigit : c.toNat - '0'.toNat + 1 ≤ 10 := by
      have hle := (Char.isDigit_iff_toNat.1 hc).2
      simp only [Char.reduceToNat] at hle ⊢
      omega
    have hmul := Nat.mul_le_mul_left (10 ^ cs.length) hdigit
    have hrest := ih hcs
    rw [Nat.ofDigitChars_cons, Nat.mul_zero, Nat.zero_add, Nat.ofDigitChars_eq_ofDigitChars_zero,
      List.length_cons, Nat.pow_succ]
    rw [Nat.mul_add_one] at hmul
    omega

/-- A digit other than zero counts for a power of ten at least. -/
theorem pow_le_ofDigitChars {c : Char} (hc : c.isDigit = true) (hzero : c ≠ '0') (cs : List Char) :
    10 ^ cs.length ≤ Nat.ofDigitChars 10 (c :: cs) 0 := by
  have hdigit : 1 ≤ c.toNat - '0'.toNat := by
    have hge := (Char.isDigit_iff_toNat.1 hc).1
    have hne : c.toNat ≠ '0'.toNat := fun h ↦ hzero (Char.toNat_inj.1 h)
    omega
  rw [Nat.ofDigitChars_cons, Nat.mul_zero, Nat.zero_add, Nat.ofDigitChars_eq_ofDigitChars_zero]
  calc 10 ^ cs.length ≤ 10 ^ cs.length * (c.toNat - '0'.toNat) := Nat.le_mul_of_pos_right _ hdigit
    _ ≤ _ := Nat.le_add_right ..

/-! ### Ends -/

/-- The text does not go on with a digit. -/
def EndsDigits (cs : List Char) : Prop := cs.takeWhile Char.isDigit = []

theorem endsDigits_cons {c : Char} (h : c.isDigit = false) : EndsDigits (c :: cs) := by
  simp [EndsDigits, h]

theorem takeWhile_digits_append (hds : ∀ c ∈ ds, c.isDigit = true) (hcs : EndsDigits cs) :
    (ds ++ cs).takeWhile Char.isDigit = ds := by
  rw [List.takeWhile_append_of_pos hds, hcs, List.append_nil]

theorem dropWhile_digits_append (hds : ∀ c ∈ ds, c.isDigit = true) (hcs : EndsDigits cs) :
    (ds ++ cs).dropWhile Char.isDigit = cs := by
  rw [List.dropWhile_append_of_pos hds]
  have h := List.takeWhile_append_dropWhile (p := Char.isDigit) (l := cs)
  rwa [hcs, List.nil_append] at h

/-! ### Padding -/

theorem toList_padNat (width n : Nat) :
    (padNat width n).toList =
      List.replicate (width - (Nat.toDigits 10 n).length) '0' ++ Nat.toDigits 10 n :=
  String.toList_ofList

theorem length_padNat {width n : Nat} (hwidth : 0 < width) (h : n < 10 ^ width) :
    (padNat width n).toList.length = width := by
  have hle := (Nat.length_toDigits_le_iff (b := 10) (by decide) hwidth).2 h
  rw [toList_padNat, List.length_append, List.length_replicate]
  omega

theorem isDigit_of_mem_padNat {width n : Nat} {c : Char} (h : c ∈ (padNat width n).toList) :
    c.isDigit = true := by
  rw [toList_padNat] at h
  exact (isDigits_zeros_append (isDigits_toDigits n) _).2 c h

theorem ofDigitChars_padNat (width n : Nat) :
    Nat.ofDigitChars 10 (padNat width n).toList 0 = n := by
  rw [toList_padNat, ofDigitChars_replicate_append, Nat.ofDigitChars_ten_toDigits]

end LogicalQuery.Text
