import LogicalQuery.Cast.Registry
import LogicalQuery.Value.Conversion

/-!
# The standard casts

Casts among numbers, truth values and texts, and from integers to instants. Numbers are narrowed
by wrapping or by truncation, and a text that is no number casts to zero, so that only a cast to
an instant can fail on a value of its type.
-/

namespace LogicalQuery

open LogicalQuery.Text

namespace Cast

/-- Takes the content of a value of type `source`, and refuses any other value. -/
def expect {α : Type} (source : DataType) (content? : Value → Option α) (v : Value) :
    Except Error α :=
  match content? v with
  | some a => .ok a
  | none => .error (.typeMismatch source v.dataType?)

/-- A cast that is given by a function on the content of integers. -/
def ofInteger (target : DataType) (f : Int32 → Except Error Value) : Cast :=
  ⟨.integer, target, fun v ↦ expect .integer Value.integer? v >>= f⟩

/-- A cast that is given by a function on the content of big integers. -/
def ofBigInteger (target : DataType) (f : Int64 → Except Error Value) : Cast :=
  ⟨.bigInteger, target, fun v ↦ expect .bigInteger Value.bigInteger? v >>= f⟩

/-- A cast that is given by a function on the content of floats. -/
def ofFloat (target : DataType) (f : Binary64 → Value) : Cast :=
  ⟨.float, target, fun v ↦ (expect .float Value.float? v).map f⟩

/-- A cast that is given by a function on truth values. -/
def ofBoolean (target : DataType) (f : Bool → Value) : Cast :=
  ⟨.boolean, target, fun v ↦ (expect .boolean Value.boolean? v).map f⟩

/-- A cast that is given by a function on texts. -/
def ofString (target : DataType) (f : String → Value) : Cast :=
  ⟨.string, target, fun v ↦ (expect .string Value.string? v).map f⟩

/-- The truth value that a text stands for. -/
def truthOfText (s : String) : Bool :=
  s ∈ ["1", "t", "T", "TRUE", "true", "True"]

/-- The number that a reader finds, or the one to take where it finds none. -/
def orElse {ε α : Type} (default : α) : Except ε α → α
  | .ok a => a
  | .error _ => default

/-- The standard casts, in the order of their registration. -/
def standard : List Cast :=
  [ofInteger .bigInteger fun n ↦ .ok (.bigInteger n.toInt64),
   ofInteger .float fun n ↦ .ok (.float (.ofInt n.toInt)),
   ofInteger .boolean fun n ↦ .ok (.boolean (n != 0)),
   ofInteger .string fun n ↦ .ok (.string (toString n.toInt)),
   ofInteger .timestampTz fun n ↦ DataType.instantOf (.integer n) n.toInt,
   ofBigInteger .integer fun n ↦ .ok (.integer n.toInt32),
   ofBigInteger .float fun n ↦ .ok (.float (.ofInt n.toInt)),
   ofBigInteger .boolean fun n ↦ .ok (.boolean (n != 0)),
   ofBigInteger .string fun n ↦ .ok (.string (toString n.toInt)),
   ofBigInteger .timestampTz fun n ↦ DataType.instantOf (.bigInteger n) n.toInt,
   ofFloat .integer fun x ↦ .integer (.ofIntClamp x.truncate),
   ofFloat .bigInteger fun x ↦ .bigInteger (.ofIntClamp x.truncate),
   ofFloat .boolean fun x ↦ .boolean !x.isZero,
   ofFloat .string fun x ↦ .string x.generalText,
   ofBoolean .integer fun b ↦ .integer (if b then 1 else 0),
   ofBoolean .bigInteger fun b ↦ .bigInteger (if b then 1 else 0),
   ofBoolean .float fun b ↦ .float (.ofInt (if b then 1 else 0)),
   ofBoolean .string fun b ↦ .string (if b then "true" else "false"),
   ofString .integer fun s ↦ .integer (orElse 0 (readInt32 s)),
   ofString .bigInteger fun s ↦ .bigInteger (orElse 0 (readInt64 s)),
   ofString .float fun s ↦ .float ((Binary64.read? s).getD (.zero false)),
   ofString .boolean fun s ↦ .boolean (truthOfText s)]

end Cast

/-- The registry that holds the standard casts. -/
def CastRegistry.standard : CastRegistry := ofList Cast.standard

end LogicalQuery
