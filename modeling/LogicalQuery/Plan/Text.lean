import LogicalQuery.Plan.Basic

/-!
# Plans as text

An operator is described in one line. A plan is written with one line for each operator, its
input below it and indented by two blanks.
-/

namespace LogicalQuery

/-- The names of expressions, separated by commas. -/
def Expr.joinedNames (es : List Expr) : String := ", ".intercalate (es.map Expr.name)

/-- A sort key in words. The place of nulls is not mentioned. -/
def SortKey.text (k : SortKey) : String :=
  k.expr.name ++ (if k.ascending then " ASC" else " DESC")

namespace Plan

/-- The operator in one line, without its input. -/
def describe : Plan → String
  | unresolvedTable (some database) name => s!"UnresolvedTable({database}.{name})"
  | unresolvedTable none name => s!"UnresolvedTable({name})"
  | table database schema => s!"Table({database}.{schema.name})"
  | project _ es => s!"Project({Expr.joinedNames es})"
  | filter _ e => s!"Filter({e.name})"
  | groupBy _ as gs =>
    s!"GroupBy(aggregates: [{Expr.joinedNames as}], grouping: [{Expr.joinedNames gs}])"
  | sort _ ks => "Sort(" ++ ", ".intercalate (ks.map SortKey.text) ++ ")"
  | limit _ n => s!"Limit({n})"
  | offset _ n => s!"Offset({n})"

/-- The lines of a plan, indented by `depth` steps. -/
def textFrom (depth : Nat) : Plan → String
  | p@(unresolvedTable _ _) | p@(table _ _) => line depth p
  | p@(project input _) | p@(filter input _) | p@(groupBy input _ _) | p@(sort input _)
  | p@(limit input _) | p@(offset input _) => line depth p ++ input.textFrom (depth + 1)
where
  /-- The line of an operator. -/
  line (depth : Nat) (p : Plan) : String :=
    String.ofList (List.replicate (2 * depth) ' ') ++ p.describe ++ "\n"

/-- The plan as text. -/
def text (p : Plan) : String := p.textFrom 0

end Plan

end LogicalQuery
