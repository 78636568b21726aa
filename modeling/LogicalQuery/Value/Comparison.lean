import LogicalQuery.Error

/-!
# Comparison

`DataType.compare` orders two values of one type: numbers by size, floating-point numbers by the
total order of their bits, texts by code points, `false` before `true`, instants by time. Null is
not ordered.
-/

namespace LogicalQuery

/-- The order of two values of the type `t`. -/
def DataType.compare (t : DataType) (a b : Value) : Except Error Ordering :=
  match t, a, b with
  | .integer, .integer a, .integer b => .ok (Ord.compare a.toInt b.toInt)
  | .bigInteger, .bigInteger a, .bigInteger b => .ok (Ord.compare a.toInt b.toInt)
  | .timestamp, .timestamp a, .timestamp b => .ok (Ord.compare a.toInt b.toInt)
  | .float, .float a, .float b => .ok (a.compareTotal b)
  | .string, .string a, .string b => .ok (Ord.compare a b)
  | .boolean, .boolean a, .boolean b => .ok (Ord.compare a b)
  | .timestampTz, .timestampTz a, .timestampTz b => .ok (a.compare b)
  | t, a, b => .error (.typeMismatch t (if t.check a then b else a).dataType?)

/-- A comparison operator. -/
inductive ComparisonOp where
  /-- Equal. -/
  | eq
  /-- Greater. -/
  | gt
  /-- Less. -/
  | lt
  /-- Greater or equal. -/
  | ge
  /-- Less or equal. -/
  | le
deriving DecidableEq, Repr

namespace ComparisonOp

/-- Every operator. -/
def all : List ComparisonOp := [eq, gt, lt, ge, le]

/-- The sign of the operator. -/
def symbol : ComparisonOp → String
  | eq => "="
  | gt => ">"
  | lt => "<"
  | ge => ">="
  | le => "<="

/-- Whether the operator holds of two operands in the given order. -/
def holds : ComparisonOp → Ordering → Bool
  | eq, o => o == .eq
  | gt, o => o == .gt
  | lt, o => o == .lt
  | ge, o => o != .lt
  | le, o => o != .gt

end ComparisonOp

end LogicalQuery
