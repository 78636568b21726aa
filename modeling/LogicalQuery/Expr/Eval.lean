import LogicalQuery.Expr.Typing
import LogicalQuery.Row

/-!
# Evaluation

The value of an expression on a row. Null is passed on by negation, comparison and casts; both
operands of a comparison are evaluated, the left one first.
-/

namespace LogicalQuery.Expr

/-- The value of an expression on a row. Unbound names have none, and an aggregate has one only
over the rows of a group. -/
def eval (row : Row) : Expr → Except Error Value
  | literal v _ => .ok v
  | field f =>
    match row.get? f.index with
    | some v => .ok v
    | none => .error (.invalidExpression (.columnOutOfRange f.name f.index row.size))
  | renamed e _ => e.eval row
  | not e => do
    match ← e.eval row with
    | .boolean b => return .boolean !b
    | .null => return .null
    | v => throw (.typeMismatch .boolean v.dataType?)
  | comparison op l r => do
    let a ← l.eval row
    let b ← r.eval row
    if a.isNull || b.isNull then return .null
    let order ← (← l.dataType).compare a b
    return .boolean (op.holds order)
  | e@(cast _ _ none) => .error (.unresolvedExpression e.name)
  | cast child _ (some c) => do c.apply (← child.eval row)
  | e@(aggregate _ _) => .error (.invalidExpression (.aggregateOnRow e.name))
  | e@star | e@(column _ _) | e@(call _ _) => .error (.unresolvedExpression e.name)

end LogicalQuery.Expr
