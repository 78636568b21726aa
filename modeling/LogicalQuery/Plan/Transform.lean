import LogicalQuery.Expr.Transform
import LogicalQuery.Plan.Basic

/-!
# Transforming plans

Plans are transformed from the table up, like expressions from the leaves up. A transformation of
the expressions of a plan goes through the operators from the table up, and through the
expressions of an operator from left to right, each from the leaves up.
-/

namespace LogicalQuery.Plan

variable {m : Type → Type} [Monad m]

/-- The operator over the image of its input. -/
def mapChildren (f : Plan → Plan) : Plan → Plan
  | project p es => project (f p) es
  | filter p e => filter (f p) e
  | groupBy p as gs => groupBy (f p) as gs
  | sort p ks => sort (f p) ks
  | limit p n => limit (f p) n
  | offset p n => offset (f p) n
  | p@(unresolvedTable _ _) | p@(table _ _) => p

/-- The operator with each of its own expressions replaced by its image, with an effect for each
expression. -/
def mapExpressionsM (f : Expr → m Expr) : Plan → m Plan
  | project p es => do return project p (← es.mapM f)
  | filter p e => do return filter p (← f e)
  | groupBy p as gs => do
    let as ← as.mapM f
    let gs ← gs.mapM f
    return groupBy p as gs
  | sort p ks => do
    return sort p (← ks.mapM fun k ↦ do return { k with expr := ← f k.expr })
  | p@(unresolvedTable _ _) | p@(table _ _) | p@(limit _ _) | p@(offset _ _) => pure p

/-- The operator with each of its own expressions replaced by its image. -/
def mapExpressions (f : Expr → Expr) : Plan → Plan
  | project p es => project p (es.map f)
  | filter p e => filter p (f e)
  | groupBy p as gs => groupBy p (as.map f) (gs.map f)
  | sort p ks => sort p (ks.map fun k ↦ { k with expr := f k.expr })
  | p@(unresolvedTable _ _) | p@(table _ _) | p@(limit _ _) | p@(offset _ _) => p

/-- Transforms a plan from the table up, with an effect for each operator. -/
def transformUpM (f : Plan → m Plan) : Plan → m Plan
  | project p es => do f (project (← p.transformUpM f) es)
  | filter p e => do f (filter (← p.transformUpM f) e)
  | groupBy p as gs => do f (groupBy (← p.transformUpM f) as gs)
  | sort p ks => do f (sort (← p.transformUpM f) ks)
  | limit p n => do f (limit (← p.transformUpM f) n)
  | offset p n => do f (offset (← p.transformUpM f) n)
  | unresolvedTable d n => f (unresolvedTable d n)
  | table d s => f (table d s)

/-- Transforms a plan from the table up. -/
def transformUp (f : Plan → Plan) (p : Plan) : Plan :=
  Id.run (p.transformUpM fun p ↦ pure (f p))

/-- Transforms the expressions of an operator, with an effect for each node. -/
def transformExpressionsM (f : Expr → m Expr) (p : Plan) : m Plan :=
  p.mapExpressionsM fun e ↦ e.transformUpM f

/-- Transforms the expressions of an operator. -/
def transformExpressions (f : Expr → Expr) (p : Plan) : Plan :=
  p.mapExpressions fun e ↦ e.transformUp f

/-- Transforms the expressions of all operators, with an effect for each node. -/
def transformExpressionsUpM (f : Expr → m Expr) (p : Plan) : m Plan :=
  p.transformUpM fun p ↦ p.transformExpressionsM f

/-- Transforms the expressions of all operators. -/
def transformExpressionsUp (f : Expr → Expr) (p : Plan) : Plan :=
  p.transformUp fun p ↦ p.transformExpressions f

/-! ### Transforming by pure functions -/

/-- A transformation applies its function to the operator over the transformed input. -/
theorem transformUp_eq (f : Plan → Plan) (p : Plan) :
    p.transformUp f = f (p.mapChildren (transformUp f)) := by
  cases p <;> rfl

theorem run_mapExpressionsM (f : Expr → Expr) (p : Plan) :
    Id.run (p.mapExpressionsM fun e ↦ pure (f e)) = p.mapExpressions f := by
  cases p <;> simp [mapExpressionsM, mapExpressions]

theorem run_transformExpressionsUpM (f : Expr → Expr) (p : Plan) :
    Id.run (p.transformExpressionsUpM fun e ↦ pure (f e)) = p.transformExpressionsUp f := by
  have h (q : Plan) : q.transformExpressionsM (fun e ↦ (pure (f e) : Id Expr)) =
      pure (q.transformExpressions f) := run_mapExpressionsM (Expr.transformUp f) q
  simp only [transformExpressionsUpM, h]
  rfl

end LogicalQuery.Plan
