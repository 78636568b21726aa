import LogicalQuery.Proofs.Aggregate.Fold
import LogicalQuery.Proofs.Expr.Soundness

/-!
# Type soundness of aggregates

The aggregate of a group fits the type of the aggregate, if its child fits its own type on every
row of the group (`accumulateFits`). The aggregate fails only with the child, or when more rows are
counted than an integer of 32 bits holds.
-/

namespace LogicalQuery

namespace Aggregate

variable {a : Aggregate}

/-- The aggregate of the rows is a value that fits the type of the aggregate, or the child fails
on one of the rows since the argument of a cast to an instant overflows, or more rows are counted
than an integer of 32 bits holds. -/
def AccumulateFits (a : Aggregate) (rows : List Row) : Prop :=
  (∃ v t, a.accumulate rows = .ok v ∧ a.toExpr.dataType = .ok t ∧ v.Fits t a.toExpr.nullable) ∨
    (∃ row ∈ rows, ∃ err, a.accumulate rows = .error err ∧ a.child.OverflowsOn row err) ∨
    a.function = .count ∧ 2 ^ 31 ≤ rows.countP a.counts ∧
      ∃ n, a.accumulate rows = .error (.countOverflow n 1)

theorem accumulateFits_count (ha : a.function = .count) {rows : List Row}
    (h : a.countsRows = true ∨ ∃ t, ∀ row ∈ rows, a.child.EvalFits t row) :
    a.AccumulateFits rows := by
  cases hfold : a.fold rows with
  | ok b =>
    obtain ⟨-, k, -, rfl⟩ := (fold_count_eq_ok_iff ha).1 hfold
    have hresult : a.accumulate rows = .ok (.integer k) := by
      rw [accumulate, hfold, ok_bind, result, ha]
      rfl
    have htype : a.toExpr.dataType = .ok .integer := by rw [toExpr, ha, Expr.dataType]
    exact .inl ⟨.integer k, .integer, hresult, htype, .inr rfl⟩
  | error e =>
    have herror : a.accumulate rows = .error e := by rw [accumulate, hfold, error_bind]
    obtain ⟨before, row, later, rfl, -, -, hrow⟩ := (fold_count_eq_error_iff ha).1 hfold
    have hmem : row ∈ before ++ row :: later := List.mem_append_right before List.mem_cons_self
    -- Where every row counts, no child is evaluated.
    rcases hrow with he | ⟨hcounted, hmax, rfl⟩
    · rw [counted] at he
      rcases h with hstar | ⟨t, ht⟩
      · rw [if_pos hstar] at he
        cases he
      · split at he
        next => cases he
        next =>
          rw [map_eq_error_iff] at he
          rcases ht row hmem with ⟨v, hv, -⟩ | ⟨err, herr, hover⟩
          · cases hv.symm.trans he
          · obtain rfl := Except.error.inj (herr.symm.trans he)
            exact .inr (.inl ⟨row, hmem, err, herror, hover⟩)
    · have hcount := countP_counts_cons hcounted later
      rw [if_pos rfl] at hcount
      refine .inr (.inr ⟨ha, ?_, _, herror⟩)
      rw [List.countP_append]
      omega

theorem accumulateFits_first (ha : a.function = .first) {t : DataType}
    (ht : a.child.dataType = .ok t) {rows : List Row}
    (h : ∀ row ∈ rows, a.child.EvalFits t row) : a.AccumulateFits rows := by
  have htype : a.toExpr.dataType = .ok t := by rw [toExpr, ha, Expr.dataType, ht]
  have hnullable : a.toExpr.nullable = true := by rw [toExpr, ha]; rfl
  rw [AccumulateFits, accumulate_first ha, htype, hnullable]
  cases hvalue : a.child.firstValue rows with
  | ok v =>
    refine .inl ⟨v, t, rfl, rfl, ?_⟩
    rcases Expr.firstValue_eq_ok_iff.1 hvalue with ⟨rfl, -⟩ | ⟨-, before, row, later, rfl, -, hv⟩
    · exact .inl ⟨rfl, rfl⟩
    · rcases h row (List.mem_append_right before List.mem_cons_self) with ⟨w, hw, hfits⟩ | ⟨_, he, -⟩
      · obtain rfl := Except.ok.inj (hv.symm.trans hw)
        exact hfits.imp_left fun ⟨hnull, _⟩ ↦ ⟨hnull, rfl⟩
      · cases hv.symm.trans he
  | error e =>
    obtain ⟨before, row, later, rfl, -, he⟩ := Expr.firstValue_eq_error_iff.1 hvalue
    have hmem : row ∈ before ++ row :: later := List.mem_append_right before List.mem_cons_self
    rcases h row hmem with ⟨_, hv, -⟩ | ⟨err, herr, hover⟩
    · cases hv.symm.trans he
    · obtain rfl := Except.error.inj (herr.symm.trans he)
      exact .inr (.inl ⟨row, hmem, _, rfl, hover⟩)

/-- **Type soundness of aggregates.** The aggregate fits its type, if all rows count whatever their
values, or the child fits its type on every row. -/
theorem accumulateFits {rows : List Row}
    (h : a.countsRows = true ∨
      ∃ t, a.child.dataType = .ok t ∧ ∀ row ∈ rows, a.child.EvalFits t row) :
    a.AccumulateFits rows := by
  cases ha : a.function with
  | count => exact accumulateFits_count ha (h.imp_right fun ⟨t, _, hrows⟩ ↦ ⟨t, hrows⟩)
  | first =>
    rcases h with hstar | ⟨t, ht, hrows⟩
    · rw [countsRows, ha] at hstar
      exact nomatch hstar
    · exact accumulateFits_first ha ht hrows

end Aggregate

end LogicalQuery
