import LogicalQuery.Proofs.Expr.Pending
import LogicalQuery.Proofs.Plan.Operator

/-!
# What is left to do in a plan

One step is left at a table that is only named, and at other operators the steps that are left in
their expressions. As for expressions, `Advances` passes from the function of a transformation to
the transformation, and where a transformation by a function that advances changes nothing, the
function changes nothing anywhere.
-/

namespace LogicalQuery.Plan

/-! ### Pending steps -/

/-- The number of steps that may be left at the root of a plan. -/
def pendingAtRoot : Plan → Nat
  | unresolvedTable _ _ => 1
  | p => Expr.pendingAll p.expressions

/-- The number of steps that may be left in a plan. -/
def pending (p : Plan) : Nat := (p.operators.map pendingAtRoot).sum

theorem pending_eq (p : Plan) : p.pending = p.pendingAtRoot + (p.children.map pending).sum := by
  have hmap : List.map List.sum (p.children.map fun c ↦ c.operators.map pendingAtRoot) =
      p.children.map pending := List.map_map
  rw [pending, operators_eq, List.map_cons, List.sum_cons, List.map_flatMap, List.flatMap_def,
    List.sum_flatten, hmap]

theorem pendingAll_le (es : List Expr) : Expr.pendingAll es ≤ 2 * (es.map Expr.size).sum := by
  induction es with
  | nil => exact le_rfl
  | cons e es ih =>
    have := e.pending_le
    simp only [Expr.pendingAll, List.map_cons, List.sum_cons] at ih ⊢
    omega

/-- At most one step is left at the table of a plan, and two at each node of its expressions. -/
theorem pending_le (p : Plan) : p.pending ≤ 1 + 2 * p.exprCount := by
  have hstep {p c : Plan} (hc : p.children = [c])
      (hp : p.pendingAtRoot = Expr.pendingAll p.expressions)
      (ih : c.pending ≤ 1 + 2 * c.exprCount) : p.pending ≤ 1 + 2 * p.exprCount := by
    have := pendingAll_le p.expressions
    rw [pending_eq, exprCount_eq, hc, hp, List.map_singleton, List.map_singleton,
      List.sum_singleton, List.sum_singleton]
    omega
  induction p with
  | unresolvedTable _ _ => exact le_rfl
  | table _ _ => exact Nat.zero_le 1
  | project _ _ ih | filter _ _ ih | groupBy _ _ _ ih | sort _ _ ih | limit _ _ ih
  | offset _ _ ih => exact hstep rfl rfl ih

/-! ### Advancing -/

/-- The second plan is the first one, or fewer steps are left in it. -/
def Advances (p p' : Plan) : Prop := p' = p ∨ p'.pending < p.pending

theorem Advances.refl (p : Plan) : p.Advances p := .inl rfl

theorem Advances.pending_le {p p' : Plan} (h : p.Advances p') : p'.pending ≤ p.pending := by
  rcases h with rfl | h
  · exact le_rfl
  · exact h.le

theorem Advances.trans {p p' p'' : Plan} (h : p.Advances p') (h' : p'.Advances p'') :
    p.Advances p'' := by
  rcases h with rfl | hlt
  · exact h'
  · exact .inr (h'.pending_le.trans_lt hlt)

/-- Plans that advance to each other are the same. -/
theorem Advances.antisymm {p p' : Plan} (h : p.Advances p') (h' : p'.Advances p) : p' = p := by
  rcases h with h | hlt
  · exact h
  · exact absurd h'.pending_le (not_le.2 hlt)

theorem pendingAtRoot_mapChildren (g : Plan → Plan) (p : Plan) :
    (p.mapChildren g).pendingAtRoot = p.pendingAtRoot := by
  cases p <;> rfl

/-- An operator advances if its inputs do. -/
theorem advances_mapChildren {g : Plan → Plan} {p : Plan} (h : ∀ c ∈ p.children, c.Advances (g c)) :
    p.Advances (p.mapChildren g) := by
  rcases map_eq_or_sum_map_lt pending h with heq | hlt
  · exact .inl (mapChildren_eq_self heq)
  · rw [Advances, pending_eq, pending_eq, children_mapChildren, pendingAtRoot_mapChildren]
    exact .inr (by omega)

/-- An operator advances if its expressions do. -/
theorem advances_mapExpressions {g : Expr → Expr} {p : Plan}
    (h : ∀ e ∈ p.expressions, e.Advances (g e)) : p.Advances (p.mapExpressions g) := by
  rcases Expr.map_eq_or_pendingAll_lt h with heq | hlt
  · exact .inl (mapExpressions_eq_self heq)
  · rw [← expressions_mapExpressions] at hlt
    rw [Advances, pending_eq, pending_eq, children_mapExpressions]
    -- A table that is only named has a step left without any expression.
    cases p with
    | unresolvedTable _ _ => exact .inl rfl
    | _ => exact .inr (Nat.add_lt_add_right hlt _)

variable {f : Plan → Plan}

/-- If a function advances every operator, then so does the transformation by the function. -/
theorem advances_transformUp (hf : ∀ p, Advances p (f p)) (p : Plan) :
    p.Advances (p.transformUp f) :=
  transformUp_rel (R := Advances) .trans advances_mapChildren hf p

/-- Where a transformation changes nothing, its function changes no operator. -/
theorem all_eq_of_transformUp_eq (hf : ∀ p, Advances p (f p)) {p : Plan}
    (h : p.transformUp f = p) : p.All fun n ↦ f n = n := by
  induction p using children_induction with
  | node p ih =>
    -- The rebuilt operator lies between the operator and its image, which are the same.
    have hmap := advances_mapChildren (p := p) fun c _ ↦ advances_transformUp hf c
    have hroot := hf (p.mapChildren (transformUp f))
    rw [transformUp_eq] at h
    rw [h] at hroot
    have heq := hmap.antisymm hroot
    rw [heq] at h
    refine all_iff.2 ⟨h, fun c hc ↦ ih c hc ?_⟩
    have hchildren := congrArg children heq
    rw [children_mapChildren] at hchildren
    exact eq_of_map_eq hchildren c hc

/-! ### Transforming the expressions of a plan -/

variable {g : Expr → Expr}

theorem advances_transformExpressions (hg : ∀ e, Expr.Advances e (g e)) (p : Plan) :
    p.Advances (p.transformExpressions g) :=
  advances_mapExpressions fun e _ ↦ Expr.advances_transformUp hg e

theorem advances_transformExpressionsUp (hg : ∀ e, Expr.Advances e (g e)) (p : Plan) :
    p.Advances (p.transformExpressionsUp g) :=
  advances_transformUp (advances_transformExpressions hg) p

/-- Where a transformation of the expressions of an operator changes nothing, its function changes no
subexpression of them, and the bound casts among them fit their children. -/
theorem all_eq_of_transformExpressions_eq (hg : ∀ e, Expr.Advances e (g e)) {p : Plan}
    (h : p.transformExpressions g = p) {e : Expr} (he : e ∈ p.expressions) :
    e.All fun s ↦ g s = s ∧ s.mapChildren (Expr.transformUp g) = s := by
  have hexprs := congrArg expressions h
  rw [transformExpressions, expressions_mapExpressions] at hexprs
  exact Expr.all_eq_of_transformUp_eq hg (eq_of_map_eq hexprs e he)

/-- Where a transformation of all expressions changes nothing, its function changes no
subexpression of them, and the bound casts among them fit their children. -/
theorem all_eq_of_transformExpressionsUp_eq (hg : ∀ e, Expr.Advances e (g e)) {p : Plan}
    (h : p.transformExpressionsUp g = p) :
    p.All fun n ↦ ∀ e ∈ n.expressions, e.All fun s ↦
      g s = s ∧ s.mapChildren (Expr.transformUp g) = s :=
  fun n hn _ he ↦ all_eq_of_transformExpressions_eq hg
    (all_eq_of_transformUp_eq (advances_transformExpressions hg) h n hn) he

end LogicalQuery.Plan
