import LogicalQuery.Text.LowerCase

/-!
# Lower case and ASCII case

The lower case of a text does not depend on the case of its ASCII letters: both cases of a letter
are mapped alike, and both count as cased letters where the form of a sigma is decided. So texts
that agree up to ASCII case have one lower case (`toLower_eq_of_eqIgnoringAsciiCase`). The converse
holds between ASCII texts (`eqIgnoringAsciiCase_iff_of_isAscii`). One ASCII text is not enough for
it, since the lower case of the Kelvin sign is a plain `k`.
-/

namespace LogicalQuery.Text

/-! ### Characters -/

theorem toLower_of_not_isUpper {c : Char} (h : ¬c.isUpper = true) : c.toLower = c :=
  dif_neg fun hc ↦ h (decide_eq_true hc)

/-- The code points of the capital letters of ASCII. -/
theorem isUpper_iff {c : Char} : c.isUpper = true ↔ 65 ≤ c.toNat ∧ c.toNat ≤ 90 :=
  decide_eq_true_iff.trans (and_congr UInt32.le_iff_toNat_le UInt32.le_iff_toNat_le)

/-- The capital letters of ASCII, by their place in the alphabet. -/
theorem exists_of_isUpper {c : Char} (h : c.isUpper = true) :
    ∃ i : Fin 26, c = Char.ofNat (65 + i) := by
  have hc := isUpper_iff.1 h
  refine ⟨⟨c.toNat - 65, by omega⟩, ?_⟩
  rw [Nat.add_sub_cancel' hc.1, Char.ofNat_toNat]

/-- What holds both cases of each ASCII letter for equal does not see ASCII case. -/
theorem apply_toLower {β : Type} {f : Char → β}
    (h : ∀ c, c.isAlpha = true → c.toLower.isAlpha = true → f c.toLower = f c) (c : Char) :
    f c.toLower = f c := by
  by_cases hc : c.isUpper = true
  · obtain ⟨i, rfl⟩ := exists_of_isUpper hc
    have halpha : ∀ i : Fin 26, (Char.ofNat (65 + i)).isAlpha = true ∧
        (Char.ofNat (65 + i)).toLower.isAlpha = true := by decide
    exact h _ (halpha i).1 (halpha i).2
  · rw [toLower_of_not_isUpper hc]

theorem toLower_toLower (c : Char) : c.toLower.toLower = c.toLower := by
  by_cases hc : c.isUpper = true
  · obtain ⟨i, rfl⟩ := exists_of_isUpper hc
    revert i
    decide
  · rw [toLower_of_not_isUpper hc, toLower_of_not_isUpper hc]

/-- The code points of the ASCII letters. -/
theorem toNat_of_isAlpha {c : Char} (h : c.isAlpha = true) :
    (65 ≤ c.toNat ∧ c.toNat ≤ 90) ∨ 97 ≤ c.toNat ∧ c.toNat ≤ 122 := by
  refine (Bool.or_eq_true_iff.1 h).imp isUpper_iff.1 fun hlower ↦ ?_
  have hc := Bool.and_eq_true_iff.1 hlower
  exact ⟨UInt32.le_iff_toNat_le.1 (of_decide_eq_true hc.1),
    UInt32.le_iff_toNat_le.1 (of_decide_eq_true hc.2)⟩

theorem lowerChar_of_isAlpha {c : Char} (h : c.isAlpha = true) : lowerChar c = [c.toLower] := by
  have hc := toNat_of_isAlpha h
  rw [lowerChar, if_pos (by omega)]

theorem inRanges_cased_of_isAlpha {c : Char} (h : c.isAlpha = true) :
    inRanges casedRanges c = true := by
  rw [inRanges, List.any_eq_true]
  obtain hc | hc := toNat_of_isAlpha h
  · exact ⟨(65, 90), by decide, by simpa using hc⟩
  · exact ⟨(97, 122), by decide, by simpa using hc⟩

theorem inRanges_caseIgnorable_of_isAlpha {c : Char} (h : c.isAlpha = true) :
    inRanges caseIgnorableRanges c = false := by
  have havoid : ∀ r ∈ caseIgnorableRanges, r.2 < 65 ∨ (90 < r.1 ∧ r.2 < 97) ∨ 122 < r.1 := by
    decide +kernel
  have hc := toNat_of_isAlpha h
  rw [inRanges, List.any_eq_false]
  intro r hr
  have hbounds := havoid r hr
  simp only [Bool.and_eq_true, decide_eq_true_eq]
  omega

theorem lowerChar_toLower (c : Char) : lowerChar c.toLower = lowerChar c := by
  refine apply_toLower (fun c hc hlower ↦ ?_) c
  rw [lowerChar_of_isAlpha hc, lowerChar_of_isAlpha hlower, toLower_toLower]

theorem toLower_eq_sigma_iff (c : Char) : c.toLower = 'Σ' ↔ c = 'Σ' := by
  have hsigma {d : Char} (hd : d.isAlpha = true) : d ≠ 'Σ' := by
    rintro rfl
    exact absurd hd (by decide)
  exact iff_of_eq <| apply_toLower (f := (· = 'Σ'))
    (fun _ hc hlower ↦ propext (iff_of_false (hsigma hlower) (hsigma hc))) c

/-! ### Texts -/

theorem startsCased_map_toLower (cs : List Char) :
    startsCased (cs.map Char.toLower) = startsCased cs := by
  have hignored : inRanges caseIgnorableRanges ∘ Char.toLower = inRanges caseIgnorableRanges :=
    funext <| apply_toLower fun _ hc hlower ↦
      (inRanges_caseIgnorable_of_isAlpha hlower).trans (inRanges_caseIgnorable_of_isAlpha hc).symm
  rw [startsCased, startsCased, List.dropWhile_map, hignored]
  cases cs.dropWhile (inRanges caseIgnorableRanges) with
  | nil => rfl
  | cons c _ =>
    exact apply_toLower (fun _ hc hlower ↦
      (inRanges_cased_of_isAlpha hlower).trans (inRanges_cased_of_isAlpha hc).symm) c

theorem lowerFrom_map_toLower (before cs : List Char) :
    lowerFrom (before.map Char.toLower) (cs.map Char.toLower) = lowerFrom before cs := by
  induction cs generalizing before with
  | nil => rfl
  | cons c after ih =>
    have hrest := ih (c :: before)
    rw [List.map_cons] at hrest
    rw [List.map_cons, lowerFrom, lowerFrom, hrest, lowerChar_toLower]
    simp only [toLower_eq_sigma_iff, lowerSigma, startsCased_map_toLower]

/-- **Texts that agree up to ASCII case have the same lower case.** -/
theorem toLower_eq_of_eqIgnoringAsciiCase {s t : String} (h : eqIgnoringAsciiCase s t = true) :
    toLower s = toLower t := by
  have hmap : s.toList.map Char.toLower = t.toList.map Char.toLower := eq_of_beq h
  have hs := lowerFrom_map_toLower [] s.toList
  have ht := lowerFrom_map_toLower [] t.toList
  rw [toLower, toLower, ← hs, ← ht, hmap]

/-! ### ASCII texts -/

/-- The text has no characters beyond ASCII. -/
def IsAscii (s : String) : Prop := ∀ c ∈ s.toList, c.toNat < 128

theorem lowerFrom_of_ascii {cs : List Char} (h : ∀ c ∈ cs, c.toNat < 128) (before : List Char) :
    lowerFrom before cs = cs.map Char.toLower := by
  induction cs generalizing before with
  | nil => rfl
  | cons c after ih =>
    obtain ⟨hc, hafter⟩ := List.forall_mem_cons.1 h
    have hsigma : c ≠ 'Σ' := by
      rintro rfl
      exact absurd hc (by decide)
    rw [lowerFrom, if_neg hsigma, lowerChar, if_pos hc, ih hafter, List.map_cons]
    rfl

/-- **ASCII texts have the same lower case if and only if they agree up to ASCII case.** -/
theorem eqIgnoringAsciiCase_iff_of_isAscii {s t : String} (hs : IsAscii s) (ht : IsAscii t) :
    eqIgnoringAsciiCase s t = true ↔ toLower s = toLower t := by
  rw [toLower, toLower, String.ofList_inj, lowerFrom_of_ascii hs, lowerFrom_of_ascii ht]
  exact beq_iff_eq

end LogicalQuery.Text
