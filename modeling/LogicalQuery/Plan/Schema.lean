import LogicalQuery.Plan.Text

/-!
# The schema of a plan

The columns that a plan puts out. Filters, sorts, limits and offsets pass on the columns of their
input; projections and groupings make one column of each output expression. A plan in which
something is not bound may have no schema: the errors of plans say why, and carry the plan that
they concern.
-/

namespace LogicalQuery

/-! ### Errors of plans -/

/-- Why an operation on a plan fails. -/
inductive PlanError where
  /-- An expression of the plan fails. -/
  | expression (error : Error)
  /-- The operator is not resolved, and nothing is left to bind in it. -/
  | unresolved (operator : Plan)
  /-- The plan still changes after the given number of passes. The plan is the last one reached. -/
  | limitExceeded (limit : Nat) (last : Plan)

/-- The wording of an error. -/
def PlanError.message : PlanError → String
  | expression error => error.message
  | unresolved operator => s!"Plan is not resolved: {operator.describe}"
  | limitExceeded limit _ => s!"Exceeded max analysis iterations ({limit})"

/-! ### Columns -/

/-- The column that an expression produces. A bound column keeps the table it comes from. -/
def Expr.outputColumn (e : Expr) : Except Error Column := do
  let source :=
    match e with
    | .field f => f.table
    | _ => ""
  return { name := e.name, type := ← e.dataType, nullable := e.nullable, source }

namespace Plan

/-- The columns that expressions produce. -/
def outputColumns (es : List Expr) : Except PlanError (List Column) :=
  (es.mapM Expr.outputColumn).mapError .expression

/-- The columns that a plan puts out. -/
def schema : Plan → Except PlanError (List Column)
  | p@(unresolvedTable _ _) => .error (.unresolved p)
  | table _ s => .ok s.columns
  | project _ es => outputColumns es
  | groupBy _ as _ => outputColumns as
  | filter p _ | sort p _ | limit p _ | offset p _ => p.schema

/-- The columns of a plan in which everything is bound. -/
def resolvedSchema? (p : Plan) : Option (List Column) :=
  if p.resolved then p.schema.toOption else none

end Plan

end LogicalQuery
