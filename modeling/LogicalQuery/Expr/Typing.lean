import LogicalQuery.Expr.Basic

/-!
# Types of expressions

What is known of an expression without a row: its type, whether it may be null, whether
everything in it is bound, and whether it aggregates.
-/

namespace LogicalQuery.Expr

/-- The type of an expression. Names have no type before they are bound. -/
def dataType : Expr → Except Error DataType
  | literal _ t => .ok t
  | field f => .ok f.type
  | renamed e _ => e.dataType
  | not _ | comparison _ _ _ => .ok .boolean
  | cast _ t _ => .ok t
  | aggregate .count _ => .ok .integer
  | aggregate .first e => e.dataType
  | e@star | e@(column _ _) | e@(call _ _) => .error (.unresolvedExpression e.name)

/-- The type of an expression, if it is known. -/
def dataType? (e : Expr) : Option DataType := e.dataType.toOption

section

variable (e l r : Expr)

@[simp]
theorem dataType?_literal (v : Value) (t : DataType) : (literal v t).dataType? = some t := rfl

@[simp]
theorem dataType?_star : star.dataType? = none := rfl

@[simp]
theorem dataType?_column (q : Option String) (n : String) : (column q n).dataType? = none := rfl

@[simp]
theorem dataType?_field (f : Field) : (field f).dataType? = some f.type := rfl

@[simp]
theorem dataType?_renamed (n : String) : (renamed e n).dataType? = e.dataType? := rfl

@[simp]
theorem dataType?_not : (not e).dataType? = some .boolean := rfl

@[simp]
theorem dataType?_comparison (op : ComparisonOp) :
    (comparison op l r).dataType? = some .boolean := rfl

@[simp]
theorem dataType?_cast (t : DataType) (b : Option BoundCast) :
    (cast e t b).dataType? = some t := rfl

@[simp]
theorem dataType?_call (n : String) (es : List Expr) : (call n es).dataType? = none := rfl

@[simp]
theorem dataType?_count : (aggregate .count e).dataType? = some .integer := rfl

@[simp]
theorem dataType?_first : (aggregate .first e).dataType? = e.dataType? := rfl

end

theorem dataType?_eq_some_iff {e : Expr} {t : DataType} :
    e.dataType? = some t ↔ e.dataType = .ok t := by
  unfold dataType?
  cases e.dataType <;> simp [Except.toOption]

/-- Whether an expression may evaluate to null. -/
def nullable : Expr → Bool
  | literal v _ => v.isNull
  | field f => f.nullable
  | renamed e _ | not e | cast e _ _ => e.nullable
  | comparison _ l r => l.nullable || r.nullable
  | aggregate g _ => g != .count
  | star | column _ _ | call _ _ => true

/-- Whether an expression is the star. -/
def isStar : Expr → Bool
  | star => true
  | _ => false

/-- Whether all names, types and functions in an expression are bound. A star is bound as the
argument of `count` alone. -/
def resolved : Expr → Bool
  | literal _ _ | field _ => true
  | star | column _ _ | call _ _ => false
  | renamed e _ | not e => e.resolved
  | comparison _ l r => l.resolved && r.resolved
  | cast e _ b => b.isSome && e.resolved
  | aggregate g e => (g == .count && e.isStar) || e.resolved

mutual

/-- Whether an expression is an aggregate or contains one. -/
def containsAggregate : Expr → Bool
  | literal _ _ | star | column _ _ | field _ => false
  | renamed e _ | not e | cast e _ _ => e.containsAggregate
  | comparison _ l r => l.containsAggregate || r.containsAggregate
  | call _ es => anyContainsAggregate es
  | aggregate _ _ => true

/-- Whether one of the expressions is an aggregate or contains one. -/
def anyContainsAggregate : List Expr → Bool
  | [] => false
  | e :: es => e.containsAggregate || anyContainsAggregate es

end

end LogicalQuery.Expr
