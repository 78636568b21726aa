import LogicalQuery.Cast.Registry
import LogicalQuery.Value.Comparison
import LogicalQuery.Value.ToValue

/-!
# Expressions

An expression is a tree over literals, columns and function calls. Columns, functions and casts
start out as names and types, and are bound later: a column to a position of the input row, a
cast to a function, a call to the expression that the catalog makes of it.

Equality `==` of expressions is structural, except that two bound casts are the same when they
lead from the same type to the same type, whatever their functions.
-/

namespace LogicalQuery

/-- A function over the rows of a group. -/
inductive AggregateFunction where
  /-- The number of rows, or of rows whose value is not null. -/
  | count
  /-- The first value that is not null. -/
  | first
deriving DecidableEq, Repr

/-- The name of an aggregate function in texts. -/
def AggregateFunction.name : AggregateFunction → String
  | count => "count"
  | first => "first"

/-- A cast that has been found for the type of its argument. -/
structure BoundCast where
  /-- The type of the argument. -/
  source : DataType
  /-- The type of the result. -/
  target : DataType
  /-- What is done with a value that is not null. -/
  function : CastFunction

namespace BoundCast

instance : BEq BoundCast := ⟨fun a b ↦ a.source == b.source && a.target == b.target⟩

instance : ReflBEq BoundCast := ⟨by simp [BEq.beq]⟩

/-- Casts a value. Null stays null. -/
def apply (c : BoundCast) (v : Value) : Except Error Value :=
  if v.isNull then .ok .null else c.function v

end BoundCast

/-- A column bound to a position of the input row. -/
structure Field where
  /-- The position in the row. -/
  index : Nat
  /-- The table that the column comes from. -/
  table : String
  /-- The name of the column. -/
  name : String
  /-- The type of the column. -/
  type : DataType
  /-- Whether the column may hold null. -/
  nullable : Bool
deriving DecidableEq

/-- An expression over the columns of a row, or over the rows of a group. -/
inductive Expr where
  /-- A constant with its declared type. -/
  | literal (value : Value) (type : DataType)
  /-- All columns of the input, or all rows under `count`. -/
  | star
  /-- A column by its name, possibly with the name of its table. -/
  | column (table : Option String) (name : String)
  /-- A bound column. -/
  | field (f : Field)
  /-- An expression under another name. -/
  | renamed (child : Expr) (name : String)
  /-- The negation of a truth value. -/
  | not (child : Expr)
  /-- A comparison of two operands. -/
  | comparison (op : ComparisonOp) (left right : Expr)
  /-- A conversion to the type `target`, possibly bound to a cast. -/
  | cast (child : Expr) (target : DataType) (bound : Option BoundCast)
  /-- The call of a function by its name. -/
  | call (name : String) (args : List Expr)
  /-- An aggregate function over the values of an expression. -/
  | aggregate (function : AggregateFunction) (child : Expr)

namespace Expr

/-- The literal of a value. Null gets the type of texts. -/
def ofValue {α : Type} [ToValue α] (a : α) : Expr :=
  let v := toValue a
  literal v (v.dataType?.getD .string)

/-! ### Equality -/

mutual

/-- Whether two expressions are equal, up to the functions of bound casts. -/
def beq : Expr → Expr → Bool
  | literal v t, literal v' t' => v == v' && t == t'
  | star, star => true
  | column q n, column q' n' => q == q' && n == n'
  | field f, field f' => f == f'
  | renamed e n, renamed e' n' => beq e e' && n == n'
  | not e, not e' => beq e e'
  | comparison op l r, comparison op' l' r' => op == op' && beq l l' && beq r r'
  | cast e t b, cast e' t' b' => beq e e' && t == t' && b == b'
  | call n es, call n' es' => n == n' && beqAll es es'
  | aggregate g e, aggregate g' e' => g == g' && beq e e'
  | _, _ => false

/-- Whether two lists of expressions are equal, position by position. -/
def beqAll : List Expr → List Expr → Bool
  | [], [] => true
  | e :: es, e' :: es' => beq e e' && beqAll es es'
  | _, _ => false

end

instance : BEq Expr := ⟨beq⟩

mutual

theorem beq_refl : ∀ e : Expr, beq e e = true
  | literal _ _ | star | column _ _ | field _ => by simp [beq]
  | renamed e _ | not e | aggregate _ e | cast e _ _ => by simp [beq, beq_refl e]
  | comparison _ l r => by simp [beq, beq_refl l, beq_refl r]
  | call _ es => by simp [beq, beqAll_refl es]

theorem beqAll_refl : ∀ es : List Expr, beqAll es es = true
  | [] => rfl
  | e :: es => by simp [beqAll, beq_refl e, beqAll_refl es]

end

instance : ReflBEq Expr := ⟨beq_refl _⟩

/-! ### Names -/

mutual

/-- The name of an expression, which is also the name of the column that it produces. -/
def name : Expr → String
  | literal v _ => v.text
  | star => "*"
  | column (some table) n => table ++ "." ++ n
  | column none n => n
  | field f => f.name
  | renamed _ n => n
  | not e => "not(" ++ e.name ++ ")"
  | comparison op l r => l.name ++ " " ++ op.symbol ++ " " ++ r.name
  | cast e t _ => "cast(" ++ e.name ++ " as " ++ t.name ++ ")"
  | call n es => n ++ "(" ++ ", ".intercalate (names es) ++ ")"
  | aggregate g e => g.name ++ "(" ++ e.name ++ ")"

/-- The names of several expressions. -/
def names : List Expr → List String
  | [] => []
  | e :: es => e.name :: names es

end

/-! ### Children -/

/-- The direct children of an expression, from left to right. -/
def children : Expr → List Expr
  | literal _ _ | star | column _ _ | field _ => []
  | renamed e _ | not e | cast e _ _ | aggregate _ e => [e]
  | comparison _ l r => [l, r]
  | call _ es => es

end Expr

end LogicalQuery
