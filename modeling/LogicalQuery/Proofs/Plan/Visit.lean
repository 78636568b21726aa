import LogicalQuery.Proofs.Expr.Visit
import LogicalQuery.Proofs.Plan.Operator

/-!
# The expressions that a transformation of a plan visits

A transformation of the expressions of a plan goes from the table up, and through the expressions of
an operator in their order (`visited`). As for expressions, the identity takes away the bindings
that are not for the type of the child of their cast, and nothing else (`transformUp_identity`).
-/

namespace LogicalQuery

namespace Plan

/-- The plan without the bindings in its expressions that are not for the type of the child of their
cast. -/
def withoutMisfits : Plan → Plan
  | project p es => project p.withoutMisfits (es.map Expr.withoutMisfits)
  | filter p e => filter p.withoutMisfits e.withoutMisfits
  | groupBy p as gs =>
    groupBy p.withoutMisfits (as.map Expr.withoutMisfits) (gs.map Expr.withoutMisfits)
  | sort p ks => sort p.withoutMisfits (ks.map fun k ↦ { k with expr := k.expr.withoutMisfits })
  | limit p n => limit p.withoutMisfits n
  | offset p n => offset p.withoutMisfits n
  | p@(unresolvedTable _ _) | p@(table _ _) => p

/-- The nodes of all expressions of a plan: those of an input before those of the operator over it,
and those of an operator in the order of its expressions. -/
def visited (p : Plan) : List Expr :=
  p.operators.reverse.flatMap fun n ↦ n.expressions.flatMap Expr.postorder

theorem transformUp_id (p : Plan) : p.transformUp id = p := transformUp_eq_self fun _ _ ↦ rfl

theorem transformExpressionsUp_id (p : Plan) : p.transformExpressionsUp id = p.withoutMisfits := by
  induction p with
  | unresolvedTable _ _ | table _ _ => rfl
  | project c _ ih | filter c _ ih | groupBy c _ _ ih | sort c _ ih | limit c _ ih
  | offset c _ ih =>
    rw [transformExpressionsUp_eq, mapChildren, ih]
    simp [transformExpressions, mapExpressions, Expr.transformUp_id, withoutMisfits]

variable {m : Type → Type} [Monad m] [LawfulMonad m]

/-- The expressions of an operator are visited one after the other. -/
theorem transformExpressionsM_visiting (visit : Expr → m Unit) (p : Plan) :
    p.transformExpressionsM (visiting visit) = do
      ((p.expressions.flatMap Expr.postorder).map Expr.withoutMisfits).forM visit
      return p.mapExpressions Expr.withoutMisfits := by
  have hexprs (es : List Expr) : es.mapM (Expr.transformUpM (visiting visit)) = do
      (es.flatMap fun e ↦ e.postorder.map Expr.withoutMisfits).forM visit
      return es.map Expr.withoutMisfits :=
    mapM_eq_of_visits fun e _ ↦ e.transformUpM_visiting visit
  have hkeys (ks : List SortKey) : (ks.mapM fun k ↦ do
        return { k with expr := ← k.expr.transformUpM (visiting visit) }) = do
      (ks.flatMap fun k ↦ k.expr.postorder.map Expr.withoutMisfits).forM visit
      return ks.map fun k ↦ { k with expr := k.expr.withoutMisfits } :=
    mapM_eq_of_visits fun k _ ↦ by simp [Expr.transformUpM_visiting]
  rw [transformExpressionsM]
  cases p with
  | unresolvedTable _ _ | table _ _ | limit _ _ | offset _ _ =>
    simp [mapExpressionsM, mapExpressions, expressions]
  | project c es => simp [mapExpressionsM, mapExpressions, expressions, hexprs, List.map_flatMap]
  | filter c e => simp [mapExpressionsM, mapExpressions, expressions, Expr.transformUpM_visiting]
  | groupBy c as gs =>
    simp [mapExpressionsM, mapExpressions, expressions, hexprs, List.map_flatMap]
  | sort c ks =>
    rw [mapExpressionsM, hkeys]
    simp [mapExpressions, expressions, List.map_flatMap, List.flatMap_map]

/-- **A transformation of the expressions of a plan visits each of their nodes once**, those of an
input before those of the operator over it, and what it hands over is the node without misfits. If
it gets the same back, it ends with the plan without misfits. -/
theorem transformExpressionsUpM_visiting (visit : Expr → m Unit) (p : Plan) :
    p.transformExpressionsUpM (visiting visit) = do
      (p.visited.map Expr.withoutMisfits).forM visit
      return p.withoutMisfits := by
  rw [transformExpressionsUpM]
  induction p with
  | unresolvedTable _ _ | table _ _ =>
    rw [transformUpM, transformExpressionsM_visiting]
    rfl
  | project c _ ih | filter c _ ih | groupBy c _ _ ih | sort c _ ih | limit c _ ih
  | offset c _ ih =>
    rw [transformUpM, ih]
    simp [transformExpressionsM_visiting, visited, operators, expressions, mapExpressions,
      withoutMisfits]

end Plan

/-- **What rewriting with the identity does.** An expression loses the bindings that are not for the
type of the child of their cast, and nothing else, so it stays if and only if every binding in it is
for the type of that child. The function gets each node of the expression once, children from left
to right before their parent. A transformation of operators by the identity leaves a plan as it is.
One of expressions takes the bindings that do not fit out of every operator, and it visits the
expressions of an input before those of the operator over it. -/
theorem transformUp_identity {m : Type → Type} [Monad m] [LawfulMonad m] (visit : Expr → m Unit) :
    (∀ e : Expr,
      e.transformUp id = e.withoutMisfits ∧ (e.transformUp id = e ↔ e.All Expr.BindingFits) ∧
      (e.transformUpM (visiting visit) = do
        (e.postorder.map Expr.withoutMisfits).forM visit
        return e.withoutMisfits) ∧
      e.postorder.Perm e.subexprs) ∧
    ∀ p : Plan,
      p.transformUp id = p ∧ p.transformExpressionsUp id = p.withoutMisfits ∧
      p.transformExpressionsUpM (visiting visit) = do
        (p.visited.map Expr.withoutMisfits).forM visit
        return p.withoutMisfits := by
  refine ⟨fun e ↦ ⟨e.transformUp_id, ?_, e.transformUpM_visiting visit, e.postorder_perm⟩,
    fun p ↦
      ⟨p.transformUp_id, p.transformExpressionsUp_id, p.transformExpressionsUpM_visiting visit⟩⟩
  rw [Expr.transformUp_id]
  exact Expr.withoutMisfits_eq_self_iff

/-- Of two casts, one around the other, the inner one is bound for the type of its child and the
outer one is not. The visits are written down in a list. -/
theorem transformUp_identity_misfit :
    let number : Expr := .field ⟨0, "events", "id", .integer, false⟩
    let wide : Expr := .cast number .bigInteger (some ⟨.integer, .bigInteger, .ok⟩)
    let e (bound : Option BoundCast) : Expr := .cast wide .string bound
    let p (bound : Option BoundCast) : Plan :=
      .filter (.project (.table "default" ⟨"events", []⟩) [number]) (e bound)
    let misfit : BoundCast := ⟨.integer, .string, .ok⟩
    let record (e : Expr) : StateM (List Expr) Unit := modify (· ++ [e])
    LawfulMonad (StateM (List Expr)) ∧ (e misfit).transformUp id = e none ∧
      (p misfit).transformUp id = p misfit ∧
      ((p misfit).transformExpressionsUpM (visiting record)).run [] =
        (p none, [number, number, wide, e none]) := by
  intro number wide e p misfit record
  obtain ⟨hexpr, hplan⟩ := transformUp_identity record
  refine ⟨inferInstance, (hexpr (e misfit)).1, (hplan (p misfit)).1, ?_⟩
  rw [(hplan (p misfit)).2.2]
  rfl

end LogicalQuery
