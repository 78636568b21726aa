import LogicalQuery.Binary64.Reading
import LogicalQuery.Error

/-!
# Conversion

`DataType.convert` turns a value into a value of the type, by widening, by exact narrowing, or by
reading a text. Null converts to null.
-/

namespace LogicalQuery

open LogicalQuery.Text

namespace DataType

/-- The integer that a value stands for: the content of integers and timestamps, and texts that
are numerals. -/
def integerOf (target : DataType) (v : Value) : Except Error Int64 :=
  match v with
  | .integer n => .ok n.toInt64
  | .bigInteger n | .timestamp n => .ok n
  | .string s =>
    match readInt64 s with
    | .ok n => .ok n
    | .error .outOfRange => .error (.overflow v target)
    | .error .malformed => .error (.invalidType v target)
  | _ => .error (.invalidType v target)

/-- The 32-bit integer equal to `n`, if there is one. -/
def narrow? (n : Int64) : Option Int32 :=
  if Int32.minValue.toInt ≤ n.toInt ∧ n.toInt ≤ Int32.maxValue.toInt then some n.toInt32 else none

/-- The instant at a number of seconds after the start of 1970, which the value `v` stands for. -/
def instantOf (v : Value) (seconds : Int) : Except Error Value :=
  match Instant.ofUnix? seconds 0 with
  | some t => .ok (.timestampTz t)
  | none => .error (.overflow v .timestampTz)

/-- The value as a value of the type `target`. -/
def convert (target : DataType) (v : Value) : Except Error Value :=
  match target, v with
  | _, .null => .ok .null
  | .integer, v => do
    let n ← integerOf .integer v
    match narrow? n with
    | some m => .ok (.integer m)
    | none => .error (.overflow v .integer)
  | .bigInteger, v => (integerOf .bigInteger v).map .bigInteger
  | .timestamp, v => (integerOf .timestamp v).map .timestamp
  | .float, .integer n => .ok (.float (.ofInt n.toInt))
  | .float, .bigInteger n => .ok (.float (.ofInt n.toInt))
  | .float, .timestamp n => .ok (.float (.ofInt n.toInt))
  | .float, .float x => .ok (.float x)
  | .float, .string s =>
    match Binary64.read? s with
    | some x => .ok (.float x)
    | none => .error (.invalidType v .float)
  | .string, .string s => .ok (.string s)
  | .string, .timestampTz t => .ok (.string t.toRfc3339)
  | .boolean, .boolean b => .ok (.boolean b)
  | .timestampTz, .timestampTz t => .ok (.timestampTz t)
  | .timestampTz, .string s =>
    match Instant.ofRfc3339? s with
    | some t => .ok (.timestampTz t)
    | none => .error (.invalidType v .timestampTz)
  | .timestampTz, .integer n => instantOf v n.toInt
  | .timestampTz, .bigInteger n => instantOf v n.toInt
  | target, v => .error (.invalidType v target)

end DataType

end LogicalQuery
