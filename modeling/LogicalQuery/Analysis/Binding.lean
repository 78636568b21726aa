import LogicalQuery.Analysis.Rule
import LogicalQuery.Plan.Transform
import LogicalQuery.Plan.Schema

/-!
# Binding names

The rules that replace names by what they stand for: tables by those of the catalog, a star in a
projection by the columns of its input, columns by positions of the input row, and calls by the
expressions that the catalog makes of them. Columns are bound once the input is resolved.
-/

namespace LogicalQuery

/-! ### Tables -/

/-- The table that an operator names, in place of its name. -/
def Plan.bindTable (ctx : Context) : Plan → Plan
  | p@(.unresolvedTable database name) =>
    let database := database.getD ctx.currentDatabase
    match ctx.catalog.table? database name with
    | some schema => .table database schema
    | none => p
  | p => p

/-- Binds tables. -/
def Rule.resolveTables : Rule where
  name := "resolve_tables"
  apply ctx p := p.transformUp (Plan.bindTable ctx)

/-! ### Columns -/

/-- A column bound to its position. -/
def Column.bind (c : Column) (index : Nat) : Expr :=
  .field { index, table := c.source, name := c.name, type := c.type, nullable := c.nullable }

/-- All columns, each bound to its position. -/
def Column.bindAll (columns : List Column) : List Expr :=
  columns.zipIdx.map fun (c, index) ↦ c.bind index

/-- The columns in place of each star, and each other expression in its own place. -/
def Expr.expandStars (columns : List Column) (es : List Expr) : List Expr :=
  es.flatMap fun e ↦ if e.isStar then Column.bindAll columns else [e]

/-- A projection with its stars expanded, if its input is resolved. -/
def Plan.expandStars : Plan → Plan
  | p@(.project input es) =>
    match input.resolvedSchema? with
    | some columns => .project input (Expr.expandStars columns es)
    | none => p
  | p => p

/-- Expands the stars of projections. -/
def Rule.resolveStar : Rule where
  name := "resolve_star"
  apply _ p := p.transformUp Plan.expandStars

/-- Whether a column has the given name and comes from the given table, if one is given. -/
def Column.isNamed (table : Option String) (name : String) (c : Column) : Bool :=
  c.hasName name && table.all fun t ↦ c.comesFrom t

/-- The only column that matches a name, bound to its position. -/
def Column.bindName? (columns : List Column) (table : Option String) (name : String) :
    Option Expr :=
  match columns.zipIdx.filter fun (c, _) ↦ c.isNamed table name with
  | [(c, index)] => some (c.bind index)
  | _ => none

/-- A bound column in place of a name that exactly one of the columns has. -/
def Expr.bindColumn (columns : List Column) : Expr → Expr
  | e@(.column table name) => (Column.bindName? columns table name).getD e
  | e => e

/-- The columns of the inputs of an operator, if all inputs are resolved. -/
def Plan.inputSchema? (p : Plan) : Option (List Column) :=
  (p.children.mapM Plan.resolvedSchema?).map List.flatten

/-- An operator with its columns bound, if its input is resolved. -/
def Plan.bindColumns (p : Plan) : Plan :=
  match p.inputSchema? with
  | some columns => p.transformExpressions (Expr.bindColumn columns)
  | none => p

/-- Binds columns. -/
def Rule.resolveColumns : Rule where
  name := "resolve_columns"
  apply _ p := p.transformUp Plan.bindColumns

/-! ### Functions -/

/-- The expression that the catalog makes of a call, in place of the call. -/
def Expr.bindCall (catalog : Catalog) : Expr → Expr
  | e@(.call name args) =>
    match catalog.function? name with
    | some f => (f args).toOption.getD e
    | none => e
  | e => e

/-- Binds functions. -/
def Rule.resolveFunctions : Rule where
  name := "resolve_functions"
  apply ctx p := p.transformExpressionsUp (Expr.bindCall ctx.catalog)

end LogicalQuery
