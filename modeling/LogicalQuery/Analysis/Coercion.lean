import LogicalQuery.Analysis.Rule
import LogicalQuery.Plan.Transform

/-!
# Coercion

The rules that make operands meet: a comparison of two types gets a cast around the operand of
the lower rank, and casts are bound to the functions of the registry once the type of their
argument is known.
-/

namespace LogicalQuery

namespace Expr

/-- The expression as one of type `target`, where its own type is `source`. -/
def coerce (e : Expr) (source target : DataType) : Expr :=
  if source = target then e else cast e target none

/-- A comparison of two resolved operands of different types, with the operands coerced to their
common type. -/
def coerceOperands : Expr → Expr
  | e@(comparison op l r) =>
    if l.resolved && r.resolved then
      match l.dataType?, r.dataType? with
      | some s, some t =>
        if s = t then e
        else
          let common := DataType.common s t
          comparison op (l.coerce s common) (r.coerce t common)
      | _, _ => e
    else e
  | e => e

/-- An unbound cast of a resolved argument, bound to the function of the registry if there is
one. -/
def bindCast (casts : CastRegistry) : Expr → Expr
  | e@(cast child target none) =>
    if child.resolved then
      match child.dataType? with
      | some source =>
        match casts.function source target with
        | .ok function => cast child target (some { source, target, function })
        | .error _ => e
      | none => e
    else e
  | e => e

end Expr

/-- Coerces the operands of comparisons. -/
def Rule.coerceComparisons : Rule where
  name := "coerce_comparisons"
  apply _ p := p.transformExpressionsUp Expr.coerceOperands

/-- Binds casts. -/
def Rule.resolveCasts : Rule where
  name := "resolve_casts"
  apply ctx p := p.transformExpressionsUp (Expr.bindCast ctx.casts)

end LogicalQuery
