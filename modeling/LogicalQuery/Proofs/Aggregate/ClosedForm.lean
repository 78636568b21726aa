import LogicalQuery.Proofs.Aggregate.Partition

/-!
# Aggregates in closed form

The aggregate of a group, read off the values of its expression on the rows: the number of rows where
the expression is not null, or the first value that is not null. Of several errors the one of the
earliest row wins. A count looks at all rows, and fails where an expression cannot be evaluated or
the count is the greatest one already, whichever comes first. A first value is looked for only as far
as it takes (`Aggregate.accumulate_cases`).
-/

namespace LogicalQuery

/-- Whether the expression can be evaluated on the row, with a value that is not null. -/
def Expr.hasValue (e : Expr) (row : Row) : Bool :=
  match e.eval row with
  | .ok v => !v.isNull
  | .error _ => false

namespace Aggregate

variable {a : Aggregate} {rows : List Row} {row : Row} {v : Value} {err : Error}

/-! ### Counting -/

/-- The count of a group is the number of rows that are counted, as an integer. -/
theorem accumulate_count_eq_ok_iff (ha : a.function = .count) :
    a.accumulate rows = .ok v ↔
      (∀ row ∈ rows, ∃ b, a.counted row = .ok b) ∧ rows.countP a.counts ≤ 2 ^ 31 - 1 ∧
        v = .integer (.ofNat (rows.countP a.counts)) := by
  rw [accumulate_eq_ok_iff]
  simp only [fold_count_eq_ok_iff ha]
  constructor
  · rintro ⟨b, ⟨hrows, k, hk, rfl⟩, hv⟩
    have hlt := k.toInt_lt
    rw [result, ha] at hv
    obtain rfl := Except.ok.inj hv
    have hle : rows.countP a.counts ≤ 2 ^ 31 - 1 := by omega
    refine ⟨hrows, hle, ?_⟩
    rw [Value.integer.injEq, ← Int32.toInt_inj, hk, Int32.toInt_ofNat_of_lt (by omega)]
  · rintro ⟨hrows, hle, rfl⟩
    refine ⟨_, ⟨hrows, .ofNat (rows.countP a.counts), Int32.toInt_ofNat_of_lt (by omega), rfl⟩, ?_⟩
    rw [result, ha]
    rfl

/-- The number of rows, or an overflow where that is no integer. -/
theorem accumulate_countRows (rows : List Row) :
    accumulate ⟨.count, .star⟩ rows =
      if rows.length ≤ 2 ^ 31 - 1 then .ok (.integer (.ofNat rows.length))
      else .error (.countOverflow Int32.maxValue 1) := by
  have hcounted (row : Row) : counted ⟨.count, .star⟩ row = .ok true := rfl
  have hlength (rows : List Row) : rows.countP (counts ⟨.count, .star⟩) = rows.length :=
    List.countP_eq_length.2 fun row _ ↦ counts_of_counted (hcounted row)
  split
  next hle =>
    rw [accumulate_count_eq_ok_iff rfl, hlength]
    exact ⟨fun row _ ↦ ⟨true, hcounted row⟩, hle, rfl⟩
  next hgt =>
    cases h : accumulate ⟨.count, .star⟩ rows with
    | ok v =>
      obtain ⟨-, hle, -⟩ := (accumulate_count_eq_ok_iff rfl).1 h
      rw [hlength] at hle
      exact absurd hle hgt
    | error e =>
      rw [accumulate_eq_error_iff, fold_count_eq_error_iff rfl] at h
      obtain ⟨before, row, later, -, -, -, he | ⟨-, -, rfl⟩⟩ := h
      · exact nomatch he
      · rfl

section Values

variable {e : Expr}

/-! ### Counting values -/

theorem counted_eq_map (he : e.isStar = false) (row : Row) :
    counted ⟨.count, e⟩ row = (e.eval row).map fun v ↦ !v.isNull :=
  if_neg (by simp [countsRows, he])

theorem counts_eq_hasValue (he : e.isStar = false) : counts ⟨.count, e⟩ = e.hasValue := by
  funext row
  rw [counts, counted_eq_map he, Expr.hasValue]
  cases e.eval row <;> rfl

theorem exists_counted_iff (he : e.isStar = false) :
    (∃ b, counted ⟨.count, e⟩ row = .ok b) ↔ ∃ w, e.eval row = .ok w := by
  rw [counted_eq_map he]
  cases e.eval row <;> simp [Except.map]

theorem counted_eq_true_iff (he : e.isStar = false) :
    counted ⟨.count, e⟩ row = .ok true ↔ ∃ w, e.eval row = .ok w ∧ w ≠ .null := by
  rw [counted_eq_map he, map_eq_ok_iff]
  refine exists_congr fun w ↦ and_congr_right fun _ ↦ ?_
  cases w <;> simp [Value.isNull]

theorem counted_eq_error_iff (he : e.isStar = false) :
    counted ⟨.count, e⟩ row = .error err ↔ e.eval row = .error err := by
  rw [counted_eq_map he, map_eq_error_iff]

/-- The number of rows where the expression is not null, if it can be evaluated on all rows. -/
theorem accumulate_countValues_eq_ok_iff (he : e.isStar = false) :
    accumulate ⟨.count, e⟩ rows = .ok v ↔
      (∀ row ∈ rows, ∃ w, e.eval row = .ok w) ∧ rows.countP e.hasValue ≤ 2 ^ 31 - 1 ∧
        v = .integer (.ofNat (rows.countP e.hasValue)) := by
  rw [accumulate_count_eq_ok_iff rfl, counts_eq_hasValue he]
  simp only [exists_counted_iff he]

/-- Counting fails on the first row on which the expression fails, or is not null for once too
often. -/
theorem accumulate_countValues_eq_error_iff (he : e.isStar = false) :
    accumulate ⟨.count, e⟩ rows = .error err ↔
      ∃ before row later, rows = before ++ row :: later ∧
        (∀ r ∈ before, ∃ w, e.eval r = .ok w) ∧ before.countP e.hasValue ≤ 2 ^ 31 - 1 ∧
        (e.eval row = .error err ∨ (∃ w, e.eval row = .ok w ∧ w ≠ .null) ∧
          before.countP e.hasValue = 2 ^ 31 - 1 ∧ err = .countOverflow Int32.maxValue 1) := by
  rw [accumulate_eq_error_iff, fold_count_eq_error_iff rfl, counts_eq_hasValue he]
  simp only [exists_counted_iff he, counted_eq_true_iff he, counted_eq_error_iff he]

/-! ### All aggregates -/

/-- **Aggregates in closed form.** `count(*)` is the number of rows, and overflows if that is no
integer of 32 bits. Any other `count` is the number of rows where the expression is not null, unless
there is a row where it fails, or where it is not null after `2 ^ 31 - 1` rows where it is not: the
first such row gives the error. `first` is the value on the first row where the expression is not
null, or null if there is none, unless the expression fails on a row before. The rows after that row
have no influence. -/
theorem accumulate_cases (e : Expr) (rows : List Row) :
    (accumulate ⟨.count, .star⟩ rows =
      if rows.length ≤ 2 ^ 31 - 1 then .ok (.integer (.ofNat rows.length))
      else .error (.countOverflow Int32.maxValue 1)) ∧
    (e.isStar = false →
      (∀ v, accumulate ⟨.count, e⟩ rows = .ok v ↔
        (∀ row ∈ rows, ∃ w, e.eval row = .ok w) ∧ rows.countP e.hasValue ≤ 2 ^ 31 - 1 ∧
          v = .integer (.ofNat (rows.countP e.hasValue))) ∧
      ∀ err, accumulate ⟨.count, e⟩ rows = .error err ↔
        ∃ before row later, rows = before ++ row :: later ∧
          (∀ r ∈ before, ∃ w, e.eval r = .ok w) ∧ before.countP e.hasValue ≤ 2 ^ 31 - 1 ∧
          (e.eval row = .error err ∨ (∃ w, e.eval row = .ok w ∧ w ≠ .null) ∧
            before.countP e.hasValue = 2 ^ 31 - 1 ∧ err = .countOverflow Int32.maxValue 1)) ∧
    (∀ v, accumulate ⟨.first, e⟩ rows = .ok v ↔
      (v = .null ∧ ∀ r ∈ rows, e.eval r = .ok .null) ∨
        (v ≠ .null ∧ ∃ before row later, rows = before ++ row :: later ∧
          (∀ r ∈ before, e.eval r = .ok .null) ∧ e.eval row = .ok v)) ∧
    (∀ err, accumulate ⟨.first, e⟩ rows = .error err ↔
      ∃ before row later, rows = before ++ row :: later ∧
        (∀ r ∈ before, e.eval r = .ok .null) ∧ e.eval row = .error err) ∧
    ∀ before row later v, rows = before ++ row :: later → (∀ r ∈ before, e.eval r = .ok .null) →
      e.eval row = .ok v → v ≠ .null →
        ∀ later', accumulate ⟨.first, e⟩ (before ++ row :: later') =
          accumulate ⟨.first, e⟩ rows := by
  have hfirst (rows : List Row) : accumulate ⟨.first, e⟩ rows = e.firstValue rows :=
    accumulate_first rfl rows
  refine ⟨accumulate_countRows rows, fun he ↦ ⟨fun v ↦ ?_, fun err ↦ ?_⟩, fun v ↦ ?_, fun err ↦ ?_,
    ?_⟩
  · exact accumulate_countValues_eq_ok_iff he
  · exact accumulate_countValues_eq_error_iff he
  · rw [hfirst, Expr.firstValue_eq_ok_iff]
  · rw [hfirst, Expr.firstValue_eq_error_iff]
  · rintro before row later v rfl hnull hv hne later'
    have hvalue (later : List Row) : e.firstValue (before ++ row :: later) = .ok v :=
      Expr.firstValue_eq_ok_iff.2 (.inr ⟨hne, before, row, later, rfl, hnull, hv⟩)
    rw [hfirst, hfirst, hvalue, hvalue]

/-- After a null and an instant comes a row that is no instant. Counting fails on it, and looking for
the first instant does not come to it, whatever the rows are after the instant. -/
theorem accumulate_cases_instants :
    let e := firstInstant.child
    let rows : List Row := [⟨[.null]⟩, ⟨[.bigInteger 0]⟩, ⟨[.bigInteger Int64.maxValue]⟩]
    e.isStar = false ∧
      accumulate ⟨.count, e⟩ rows = .error (.overflow (.bigInteger Int64.maxValue) .timestampTz) ∧
      ∀ later, accumulate ⟨.first, e⟩ (⟨[.null]⟩ :: ⟨[.bigInteger 0]⟩ :: later) =
        accumulate ⟨.first, e⟩ rows := by
  intro e rows
  obtain ⟨-, hcount, -, -, hfirst⟩ := accumulate_cases e rows
  refine ⟨rfl, ?_, ?_⟩
  · refine ((hcount rfl).2 _).2
      ⟨[⟨[.null]⟩, ⟨[.bigInteger 0]⟩], ⟨[.bigInteger Int64.maxValue]⟩, [], rfl, ?_, by decide, .inl rfl⟩
    simp only [List.forall_mem_cons]
    exact ⟨⟨_, rfl⟩, ⟨_, rfl⟩, nofun⟩
  · exact hfirst [⟨[.null]⟩] ⟨[.bigInteger 0]⟩ _ _ rfl
      (List.forall_mem_singleton.2 rfl) rfl nofun

end Values

end Aggregate

end LogicalQuery
