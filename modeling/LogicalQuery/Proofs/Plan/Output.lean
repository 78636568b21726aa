import LogicalQuery.Analysis.Binding
import LogicalQuery.Proofs.Expr.Coerced
import LogicalQuery.Proofs.Plan.Shape

/-!
# The output expressions of a plan

Each column that a plan puts out is made by an expression: by one of a projection or a grouping, or
by a column of the table. These expressions determine the columns with their names
(`map_outputColumn_outputs`). Once the names in a plan are bound, an analysis changes its output
expressions only by coercions (`Elaborates`), where shapes would not even tell which column has
which name.
-/

namespace LogicalQuery

theorem Expr.outputColumn_name {e : Expr} {column : Column} (h : e.outputColumn = .ok column) :
    e.name = column.name := by
  rw [outputColumn_eq] at h
  cases ht : e.dataType with
  | error _ => exact nomatch (ht ▸ h : _)
  | ok t =>
    rw [ht] at h
    exact congrArg Column.name (Except.ok.inj h)

namespace Plan

/-- The expressions that make the columns of a plan, if its table is known. -/
def outputs : Plan → List Expr
  | unresolvedTable _ _ => []
  | table _ s => Column.bindAll s.columns
  | project _ es => es
  | groupBy _ as _ => as
  | filter p _ | sort p _ | limit p _ | offset p _ => p.outputs

/-- A bound column makes the column that it is bound to. -/
theorem map_outputColumn_bindAll (columns : List Column) :
    (Column.bindAll columns).map Expr.outputColumn = columns.map .ok := by
  let ok : Column → Except Error Column := .ok
  have hok := congrArg (List.map ok) (List.zipIdx_map_fst 0 columns)
  rw [List.map_map] at hok
  rw [Column.bindAll, List.map_map]
  exact hok

theorem outputColumns_eq_ok_iff {es : List Expr} {columns : List Column} :
    outputColumns es = .ok columns ↔ es.map Expr.outputColumn = columns.map .ok := by
  rw [outputColumns, mapError_eq_ok_iff, mapM_eq_ok_iff]

/-- The output expressions of a plan make its columns. -/
theorem map_outputColumn_outputs {p : Plan} {columns : List Column} (h : p.schema = .ok columns) :
    p.outputs.map Expr.outputColumn = columns.map .ok := by
  induction p with
  | unresolvedTable _ _ => exact nomatch h
  | table _ s =>
    obtain rfl := Except.ok.inj h
    exact map_outputColumn_bindAll s.columns
  | project _ es => exact outputColumns_eq_ok_iff.1 h
  | groupBy _ as _ => exact outputColumns_eq_ok_iff.1 h
  | filter _ _ ih | sort _ _ ih | limit _ _ ih | offset _ _ ih => exact ih h

/-- An output expression is a column of the table, or an expression of one of the operators. -/
theorem mem_outputs {p : Plan} {e : Expr} (he : e ∈ p.outputs) :
    (∃ f, e = .field f) ∨ ∃ n ∈ p.operators, e ∈ n.expressions := by
  induction p with
  | unresolvedTable _ _ => exact absurd he List.not_mem_nil
  | table _ s =>
    obtain ⟨_, -, rfl⟩ := List.mem_map.1 he
    exact .inl ⟨_, rfl⟩
  | project _ es => exact .inr ⟨_, self_mem_operators _, he⟩
  | groupBy _ as gs => exact .inr ⟨_, self_mem_operators _, List.mem_append_left gs he⟩
  | filter _ _ ih | sort _ _ ih | limit _ _ ih | offset _ _ ih =>
    refine (ih he).imp_right fun ⟨n, hn, hmem⟩ ↦ ⟨n, ?_, hmem⟩
    exact mem_operators_iff.2 (.inr ⟨_, List.mem_cons_self, hn⟩)

theorem named_of_mem_outputs {p : Plan} (h : p.named = true) {e : Expr} (he : e ∈ p.outputs) :
    e.named = true := by
  rcases mem_outputs he with ⟨f, rfl⟩ | ⟨n, hn, he⟩
  · rfl
  · exact named_of_mem_expressions h hn he

/-- Each column of a plan is made by the output expression at its position. -/
theorem exists_outputs_of_schema {p : Plan} {columns : List Column} (h : p.schema = .ok columns)
    {i : Nat} {column : Column} (hi : columns[i]? = some column) :
    ∃ made, p.outputs[i]? = some made ∧ made.outputColumn = .ok column := by
  have hmap := congrArg (·[i]?) (map_outputColumn_outputs h)
  simp only [List.getElem?_map, hi, Option.map_some, Option.map_eq_some_iff] at hmap
  exact hmap

/-! ### Elaboration -/

/-- The second plan refines the first one, and has the same output expressions up to coercions if
the first one is named. -/
structure Elaborates (p p' : Plan) : Prop where
  refines : p.Refines p'
  outputs : p.named = true → p'.outputs.map Expr.coerced = p.outputs.map Expr.coerced

namespace Elaborates

theorem refl (p : Plan) : p.Elaborates p := ⟨.refl p, fun _ ↦ rfl⟩

theorem trans {p p' p'' : Plan} (h : p.Elaborates p') (h' : p'.Elaborates p'') :
    p.Elaborates p'' where
  refines := h.refines.trans h'.refines
  outputs hp := (h'.outputs (h.refines hp).1).trans (h.outputs hp)

end Elaborates

/-- An operator over elaborated inputs elaborates the operator. -/
theorem elaborates_mapChildren {g : Plan → Plan} {p : Plan}
    (h : ∀ c ∈ p.children, c.Elaborates (g c)) : p.Elaborates (p.mapChildren g) where
  refines := refines_mapChildren fun c hc ↦ (h c hc).refines
  outputs hp := by
    have hchildren := (named_iff.1 hp).2.2
    cases p with
    | unresolvedTable _ _ | table _ _ | project _ _ | groupBy _ _ _ => rfl
    | filter c _ | sort c _ | limit c _ | offset c _ =>
      exact (h c List.mem_cons_self).outputs (hchildren c List.mem_cons_self)

/-- An operator with elaborated expressions elaborates the operator. -/
theorem elaborates_mapExpressions {g : Expr → Expr} {p : Plan}
    (h : ∀ e ∈ p.expressions, e.Elaborates (g e)) : p.Elaborates (p.mapExpressions g) where
  refines := refines_mapExpressions fun e he ↦ (h e he).toRefines
  outputs hp := by
    have hexprs := (named_iff.1 hp).2.1
    have hmap {es : List Expr} (hes : ∀ e ∈ es, e ∈ p.expressions) :
        (es.map g).map Expr.coerced = es.map Expr.coerced := by
      rw [List.map_map]
      exact List.map_congr_left fun e he ↦ (h e (hes e he)).coerced (hexprs e (hes e he))
    cases p with
    | unresolvedTable _ _ | table _ _ | filter _ _ | sort _ _ | limit _ _ | offset _ _ => rfl
    | project _ es => exact hmap fun e he ↦ he
    | groupBy _ as gs => exact hmap fun e he ↦ List.mem_append_left gs he

/-- **Transformations elaborate**, if their functions do. -/
theorem elaborates_transformUp {f : Plan → Plan} (hf : ∀ p, Elaborates p (f p)) (p : Plan) :
    p.Elaborates (p.transformUp f) :=
  transformUp_rel (R := Elaborates) .trans elaborates_mapChildren hf p

theorem elaborates_transformExpressions {g : Expr → Expr} (hg : ∀ e, Expr.Elaborates e (g e))
    (p : Plan) : p.Elaborates (p.transformExpressions g) :=
  elaborates_mapExpressions fun e _ ↦ Expr.elaborates_transformUp hg e

theorem elaborates_transformExpressionsUp {g : Expr → Expr} (hg : ∀ e, Expr.Elaborates e (g e))
    (p : Plan) : p.Elaborates (p.transformExpressionsUp g) :=
  elaborates_transformUp (elaborates_transformExpressions hg) p

end Plan

end LogicalQuery
