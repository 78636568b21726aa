import LogicalQuery.Expr.Typing
import LogicalQuery.Schema

/-!
# Logical plans

A plan is a chain of operators over a table. Each operator holds expressions over the columns of
its input. Equality `==` of plans is structural, with the equality of expressions.
-/

namespace LogicalQuery

/-- An expression to sort by. -/
structure SortKey where
  /-- The expression. -/
  expr : Expr
  /-- Whether small values come first. -/
  ascending : Bool
  /-- Whether nulls come first. -/
  nullsFirst : Bool

instance : BEq SortKey :=
  ⟨fun a b ↦ a.expr == b.expr && a.ascending == b.ascending && a.nullsFirst == b.nullsFirst⟩

instance : ReflBEq SortKey := ⟨by simp [BEq.beq, Expr.beq_refl]⟩

/-- What a query computes. -/
inductive Plan where
  /-- A table by its name, in the named or in the current database. -/
  | unresolvedTable (database : Option String) (name : String)
  /-- A table of a database. -/
  | table (database : String) (schema : TableSchema)
  /-- One column for each expression. -/
  | project (input : Plan) (exprs : List Expr)
  /-- The rows that satisfy a predicate. -/
  | filter (input : Plan) (predicate : Expr)
  /-- One row for each group of rows that agree on the grouping expressions. -/
  | groupBy (input : Plan) (aggregates grouping : List Expr)
  /-- The rows in an order. -/
  | sort (input : Plan) (keys : List SortKey)
  /-- The first rows. -/
  | limit (input : Plan) (count : Nat)
  /-- All but the first rows. -/
  | offset (input : Plan) (count : Nat)

namespace Plan

/-- Whether two plans are equal, up to the functions of bound casts. -/
def beq : Plan → Plan → Bool
  | unresolvedTable d n, unresolvedTable d' n' => d == d' && n == n'
  | table d s, table d' s' => d == d' && s == s'
  | project p es, project p' es' => beq p p' && es == es'
  | filter p e, filter p' e' => beq p p' && e == e'
  | groupBy p as gs, groupBy p' as' gs' => beq p p' && as == as' && gs == gs'
  | sort p ks, sort p' ks' => beq p p' && ks == ks'
  | limit p n, limit p' n' => beq p p' && n == n'
  | offset p n, offset p' n' => beq p p' && n == n'
  | _, _ => false

instance : BEq Plan := ⟨beq⟩

theorem beq_refl (p : Plan) : beq p p = true := by
  induction p with
  | unresolvedTable _ _ | table _ _ => simp [beq]
  | project _ _ ih | filter _ _ ih | groupBy _ _ _ ih | sort _ _ ih | limit _ _ ih
  | offset _ _ ih => simp [beq, ih]

instance : ReflBEq Plan := ⟨beq_refl _⟩

/-- The inputs of an operator: one, or none for a table. -/
def children : Plan → List Plan
  | unresolvedTable _ _ | table _ _ => []
  | project p _ | filter p _ | groupBy p _ _ | sort p _ | limit p _ | offset p _ => [p]

/-- The expressions of an operator, without those of its input. -/
def expressions : Plan → List Expr
  | unresolvedTable _ _ | table _ _ | limit _ _ | offset _ _ => []
  | project _ es => es
  | filter _ e => [e]
  | groupBy _ as gs => as ++ gs
  | sort _ ks => ks.map (·.expr)

/-- Whether everything in the plan is bound: its table, and all expressions of all operators. -/
def resolved : Plan → Bool
  | unresolvedTable _ _ => false
  | table _ _ => true
  | project p es => p.resolved && es.all Expr.resolved
  | filter p e => p.resolved && e.resolved
  | groupBy p as gs => p.resolved && (as ++ gs).all Expr.resolved
  | sort p ks => p.resolved && (ks.map (·.expr)).all Expr.resolved
  | limit p _ | offset p _ => p.resolved

/-- The operator nearest to the table that is not resolved, for a plan that is not. -/
def innermostUnresolved : Plan → Plan
  | p@(unresolvedTable _ _) | p@(table _ _) => p
  | p@(project input _) | p@(filter input _) | p@(groupBy input _ _) | p@(sort input _)
  | p@(limit input _) | p@(offset input _) =>
    if input.resolved then p else input.innermostUnresolved

end Plan

end LogicalQuery
