import LogicalQuery.Binary64.Text
import LogicalQuery.DataType
import LogicalQuery.Instant.Rfc3339
import LogicalQuery.Text.CodePoints

/-!
# Values

A value is null or belongs to exactly one type. Two values are equal when they have the same type
and the same content; floating-point numbers count as equal when their bits are.
-/

namespace LogicalQuery

/-- A value of the query language. -/
inductive Value where
  /-- An integer of 32 bits. -/
  | integer (n : Int32)
  /-- An integer of 64 bits. -/
  | bigInteger (n : Int64)
  /-- A floating-point number. -/
  | float (x : Binary64)
  /-- A text. -/
  | string (s : String)
  /-- A truth value. -/
  | boolean (b : Bool)
  /-- A moment by an integer. -/
  | timestamp (n : Int64)
  /-- A moment in Coordinated Universal Time. -/
  | timestampTz (t : Instant)
  /-- The absent value. -/
  | null
deriving DecidableEq

namespace Value

/-- Whether the value is absent. -/
def isNull : Value → Bool
  | null => true
  | _ => false

/-- The type of a value. Null has none. -/
def dataType? : Value → Option DataType
  | integer _ => some .integer
  | bigInteger _ => some .bigInteger
  | float _ => some .float
  | string _ => some .string
  | boolean _ => some .boolean
  | timestamp _ => some .timestamp
  | timestampTz _ => some .timestampTz
  | null => none

/-- The name of an optional type, `null` for none. -/
def nameOfType? : Option DataType → String
  | some t => t.name
  | none => "null"

/-- The name of the value's type in texts. -/
def typeName (v : Value) : String := nameOfType? v.dataType?

/-! ### Content by type -/

/-- The content of a value of type integer. -/
def integer? : Value → Option Int32
  | integer n => some n
  | _ => none

/-- The content of a value of type big integer. -/
def bigInteger? : Value → Option Int64
  | bigInteger n => some n
  | _ => none

/-- The content of a value of type float. -/
def float? : Value → Option Binary64
  | float x => some x
  | _ => none

/-- The content of a value of type string. -/
def string? : Value → Option String
  | string s => some s
  | _ => none

/-- The content of a value of type boolean. -/
def boolean? : Value → Option Bool
  | boolean b => some b
  | _ => none

/-! ### Text -/

/-- The value as it is shown to a reader: texts in quotes, and null in capitals. -/
def text : Value → String
  | integer n => toString n.toInt
  | bigInteger n | timestamp n => toString n.toInt
  | float x => x.text
  | string s => Text.quote s
  | boolean true => "true"
  | boolean false => "false"
  | timestampTz t => t.toRfc3339
  | null => "NULL"

end Value

/-- Whether the value belongs to the type. Null belongs to no type. -/
def DataType.check (t : DataType) (v : Value) : Bool := v.dataType? == some t

theorem DataType.check_iff {t : DataType} {v : Value} :
    t.check v = true ↔ v.dataType? = some t := by
  simp [check]

end LogicalQuery
