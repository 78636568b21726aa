import LogicalQuery.Proofs.Analysis.Step
import LogicalQuery.Proofs.Plan.Shape

/-!
# Every rule refines

Once the table and all names in a plan are bound, no rule changes the columns of the plan, up to
their names.
-/

namespace LogicalQuery

/-! ### Expressions -/

namespace Expr

theorem refines_bindColumn (columns : List Column) (e : Expr) :
    e.Refines (e.bindColumn columns) := by
  rcases bindColumn_cases columns e with h | ⟨table, name, c, index, rfl, -, -, -⟩
  · exact h.symm ▸ .refl e
  · exact .of_not_named rfl rfl

theorem refines_bindCall {catalog : Catalog} (hc : catalog.OnlyAggregates) (e : Expr) :
    e.Refines (e.bindCall catalog) := by
  rcases bindCall_cases hc e with h | ⟨name, arg, g, rfl, -⟩
  · exact h.symm ▸ .refl e
  · exact .of_not_named rfl rfl

theorem refines_coerceOperands (e : Expr) : e.Refines e.coerceOperands := by
  rcases coerceOperands_cases e with h | ⟨op, l, r, s, t, rfl, -, -, -, h⟩
  · exact h.symm ▸ .refl e
  · rcases h with ⟨-, h⟩ | ⟨-, h⟩
    · rw [h]
      exact .of_eq rfl rfl rfl rfl rfl
    · rw [h]
      exact .of_eq rfl rfl rfl rfl rfl

theorem refines_bindCast (casts : CastRegistry) (e : Expr) : e.Refines (e.bindCast casts) := by
  rcases bindCast_cases casts e with h | ⟨child, source, target, function, rfl, -, -, h⟩
  · exact h.symm ▸ .refl e
  · rw [h]
    exact .of_eq rfl rfl rfl rfl rfl

theorem isStar_eq_false_of_named {e : Expr} (h : e.named = true) : e.isStar = false := by
  cases e with
  | star => exact nomatch h
  | _ => rfl

/-- Without stars there is nothing to expand. -/
theorem expandStars_eq_self {columns : List Column} {es : List Expr}
    (h : ∀ e ∈ es, e.isStar = false) : expandStars columns es = es := by
  induction es with
  | nil => rfl
  | cons e es ih =>
    rw [List.forall_mem_cons] at h
    have hes : expandStars columns es = es := ih h.2
    rw [expandStars] at hes ⊢
    rw [List.flatMap_cons, hes, h.1, if_neg Bool.false_ne_true, List.singleton_append]

end Expr

/-! ### Plans -/

namespace Plan

theorem refines_bindTable (ctx : Context) (p : Plan) : p.Refines (p.bindTable ctx) := by
  rcases bindTable_cases ctx p with h | ⟨database, name, schema, rfl, -, -⟩
  · exact h.symm ▸ .refl p
  · intro hnamed
    exact absurd (named_iff.1 hnamed).1 Bool.noConfusion

theorem refines_expandStars (p : Plan) : p.Refines p.expandStars := by
  rcases expandStars_cases p with h | ⟨input, es, columns, rfl, -, h⟩
  · exact h.symm ▸ .refl p
  · intro hnamed
    -- A projection with a star is not named yet.
    have hes : ∀ e ∈ es, e.isStar = false :=
      fun e he ↦ Expr.isStar_eq_false_of_named ((named_iff.1 hnamed).2.1 e he)
    rw [h, Expr.expandStars_eq_self hes]
    exact ⟨hnamed, rfl⟩

theorem refines_bindColumns (p : Plan) : p.Refines p.bindColumns := by
  rcases bindColumns_cases p with h | ⟨columns, -, h⟩
  · exact h.symm ▸ .refl p
  · rw [h]
    exact refines_transformExpressions (Expr.refines_bindColumn columns) p

end Plan

/-! ### Rules -/

/-- **The standard rules refine every plan.** -/
theorem Rule.refines_of_mem_standard {ctx : Context} (hc : ctx.catalog.OnlyAggregates) {r : Rule}
    (hr : r ∈ Rule.standard) (p : Plan) : p.Refines (r.apply ctx p) := by
  rcases mem_standard_iff.1 hr with rfl | rfl | rfl | rfl | rfl | rfl
  · exact Plan.refines_transformUp (Plan.refines_bindTable ctx) p
  · exact Plan.refines_transformUp Plan.refines_expandStars p
  · exact Plan.refines_transformUp Plan.refines_bindColumns p
  · exact Plan.refines_transformExpressionsUp (Expr.refines_bindCall hc) p
  · exact Plan.refines_transformExpressionsUp Expr.refines_coerceOperands p
  · exact Plan.refines_transformExpressionsUp (Expr.refines_bindCast ctx.casts) p

end LogicalQuery
