import LogicalQuery.Binary64.Text
import LogicalQuery.Proofs.Binary64.Reading

/-!
# Texts of floating-point numbers read back

Every form in which a decimal is written is read as a decimal of the same value. The shortest
decimal is nearest to its number, so that the text of a number is read as this number, with its
sign.
-/

namespace LogicalQuery

open Text Binary64

namespace Decimal

theorem readsAs_of_digitChars {d : Decimal} {cs : List Char} {e : Int}
    (h : ReadsAs cs ⟨Nat.ofDigitChars 10 d.digitChars 0, e⟩) (he : e = d.exponent) :
    ReadsAs cs d := by
  rwa [he, digitChars, Nat.ofDigitChars_ten_toDigits] at h

/-- A decimal in positional form is read as this decimal. -/
theorem readsAs_positional (d : Decimal) : ReadsAs d.positional d := by
  have hdigits : IsDigits d.digitChars := isDigits_toDigits d.digits
  rw [positional]
  split
  next hexponent =>
    exact readsAs_of_digitChars (.append_zeros hdigits _) (by omega)
  next hexponent =>
    split
    next hplaces =>
      exact readsAs_of_digitChars (.split_digits hdigits (by omega)) (by omega)
    next hplaces =>
      exact readsAs_of_digitChars (.point_zeros hdigits _) (by omega)

/-- The exponent that is written is read back. -/
theorem readExponent?_toDigits (e : Int) (k : Nat) :
    readExponent? ('e' :: (if e < 0 then '-' else '+') ::
      (List.replicate k '0' ++ Nat.toDigits 10 e.natAbs)) = some e := by
  have hdigits : IsDigits (List.replicate k '0' ++ Nat.toDigits 10 e.natAbs) :=
    isDigits_zeros_append (isDigits_toDigits e.natAbs) k
  have hread := readExponent?_cons (decide (e < 0)) hdigits
  rw [ofDigitChars_replicate_append, Nat.ofDigitChars_ten_toDigits] at hread
  simp only [decide_eq_true_eq] at hread
  rw [hread]
  split <;> congr 1 <;> omega

/-- A decimal with an exponent is read as this decimal. -/
theorem readsAs_scientific (d : Decimal) : ReadsAs d.scientific d := by
  have hdigits : IsDigits d.digitChars := isDigits_toDigits d.digits
  have hexponent := readExponent?_toDigits d.leadingExponent
    (2 - (Nat.toDigits 10 d.leadingExponent.natAbs).length)
  obtain ⟨c, cs, hcons⟩ := List.exists_cons_of_ne_nil hdigits.1
  have h := ReadsAs.leading_digit (hcons ▸ hdigits) hexponent
  have htext : d.scientific = [c] ++ (if cs.isEmpty then [] else '.' :: cs) ++
      'e' :: (if d.leadingExponent < 0 then '-' else '+') ::
        (List.replicate (2 - (Nat.toDigits 10 d.leadingExponent.natAbs).length) '0' ++
          Nat.toDigits 10 d.leadingExponent.natAbs) := by
    simp [scientific, hcons]
  rw [← htext, ← hcons] at h
  have hlowered : d.leadingExponent - cs.length = d.exponent := by
    rw [leadingExponent, hcons, List.length_cons]
    omega
  exact readsAs_of_digitChars h hlowered

end Decimal

namespace Binary64

variable {x : Binary64}

/-- A sign and a text of the shortest decimal of a finite number are read as this number. -/
theorem read?_of_readsAs_shortest {cs : List Char} (hinfinite : x.isInfinite = false)
    (hzero : x.isZero = false) (hx : x.isNaN = false) (h : ReadsAs cs (shortest x.magnitude)) :
    read? (String.ofList (x.signChars ++ cs)) = some x := by
  simp only [isInfinite, beq_eq_false_iff_ne] at hinfinite
  simp only [isZero, beq_eq_false_iff_ne] at hzero
  simp only [isNaN, decide_eq_false_iff_not] at hx
  have hnearest := nearest_shortest x (by omega) (by omega)
  exact h.read?_eq.trans (congrArg some hnearest)

theorem eq_infinity_of_isInfinite (h : x.isInfinite = true) : x = infinity x.negative :=
  Binary64.ext rfl (beq_iff_eq.1 h)

theorem eq_zero_of_isZero (h : x.isZero = true) : x = zero x.negative :=
  Binary64.ext rfl (beq_iff_eq.1 h)

/-- **The positional form of a number is read as this number.** -/
theorem read?_text (hx : x.isNaN = false) : read? x.text = some x := by
  cases hinfinite : x.isInfinite with
  | true =>
    rw [eq_infinity_of_isInfinite hinfinite]
    cases x.negative <;> rfl
  | false =>
    cases hzero : x.isZero with
    | true =>
      rw [eq_zero_of_isZero hzero]
      cases x.negative <;> rfl
    | false =>
      simp only [text, hx, hinfinite, hzero, Bool.false_eq_true, if_false]
      exact read?_of_readsAs_shortest hinfinite hzero hx (shortest x.magnitude).readsAs_positional

/-- **The general form of a number is read as this number**, with or without an exponent. -/
theorem read?_generalText (hx : x.isNaN = false) : read? x.generalText = some x := by
  cases hinfinite : x.isInfinite with
  | true =>
    rw [eq_infinity_of_isInfinite hinfinite]
    cases x.negative <;> rfl
  | false =>
    cases hzero : x.isZero with
    | true =>
      simp only [generalText, hx, hinfinite, hzero, Bool.false_eq_true, if_false, if_true]
      exact read?_text hx
    | false =>
      simp only [generalText, hx, hinfinite, hzero, Bool.false_eq_true, if_false]
      split
      next => exact read?_text hx
      next =>
        exact read?_of_readsAs_shortest hinfinite hzero hx
          (shortest x.magnitude).readsAs_scientific

end Binary64

end LogicalQuery
