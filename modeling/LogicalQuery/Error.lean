import LogicalQuery.Value.Basic

/-!
# Errors

Why a conversion, an evaluation or a definition fails. Each cause is a constructor; `message`
holds the wording of all of them.
-/

namespace LogicalQuery

/-- Why an expression cannot be used in the place where it stands. -/
inductive Misuse where
  /-- A bound column points beyond the fields of a row. -/
  | columnOutOfRange (name : String) (index fields : Nat)
  /-- An aggregate is evaluated on a single row. -/
  | aggregateOnRow (name : String)
  /-- The buffer of an aggregate has no field to count in. -/
  | emptyBuffer
  /-- A reason given by a cast or a function from outside this library. -/
  | other (reason : String)
deriving DecidableEq

/-- Why a function cannot be defined or called. -/
inductive FunctionFault where
  /-- The function takes a single argument. -/
  | wrongArgumentCount (name : String) (given : Nat)
  /-- The name is taken. -/
  | alreadyRegistered (name : String)
  /-- A reason given by a function from outside this library. -/
  | other (reason : String)
deriving DecidableEq

/-- Why a database or a table cannot be defined. -/
inductive SchemaFault where
  /-- A column has no name. -/
  | emptyColumnName
  /-- A table has no column. -/
  | noColumns
  /-- Two columns of a table share a name. -/
  | duplicateColumn (name : String)
  /-- The name of the database is taken. -/
  | databaseExists (name : String)
  /-- There is no database of this name. -/
  | noSuchDatabase (name : String)
  /-- The name of the table is taken. -/
  | tableExists (name database : String)
deriving DecidableEq

/-- Why an operation on values, expressions or a catalog fails. -/
inductive Error where
  /-- The value has no conversion to the type. -/
  | invalidType (value : Value) (target : DataType)
  /-- The number that the value stands for is outside the type. -/
  | overflow (value : Value) (target : DataType)
  /-- The sum of two counts is outside the integers. -/
  | countOverflow (left right : Int32)
  /-- No cast is registered for the pair of types. -/
  | noSuchCast (source target : DataType)
  /-- A value has another type than its place demands, or is null. -/
  | typeMismatch (expected : DataType) (actual : Option DataType)
  /-- The expression of this name is not bound. -/
  | unresolvedExpression (name : String)
  /-- The expression is used out of place. -/
  | invalidExpression (fault : Misuse)
  /-- A database or a table cannot be defined. -/
  | schemaError (fault : SchemaFault)
  /-- A function cannot be defined or called. -/
  | functionError (fault : FunctionFault)
deriving DecidableEq

/-- The wording of a misuse. -/
def Misuse.message : Misuse → String
  | columnOutOfRange name index fields =>
    s!"column {name} at index {index} is out of range for a row of {fields} fields"
  | aggregateOnRow name => s!"aggregate {name} must be evaluated through its buffer"
  | emptyBuffer => "empty aggregate buffer"
  | other reason => reason

/-- The wording of a fault in a function. -/
def FunctionFault.message : FunctionFault → String
  | wrongArgumentCount name given => s!"{name} expects 1 argument, got {given}"
  | alreadyRegistered name => s!"Function '{name}' is already registered"
  | other reason => reason

/-- The wording of a fault in a schema. -/
def SchemaFault.message : SchemaFault → String
  | emptyColumnName => "Column name cannot be empty"
  | noColumns => "Table must have at least one column"
  | duplicateColumn name => s!"Duplicate column name '{name}'"
  | databaseExists name => s!"Database '{name}' already exists"
  | noSuchDatabase name => s!"Database '{name}' does not exist"
  | tableExists name database => s!"Table '{name}' already exists in database '{database}'"

/-- The wording of an error. -/
def Error.message : Error → String
  | invalidType value target =>
    s!"Invalid type: value {value.text} can't be converted to {target.name}"
  | overflow value target => s!"Overflow: value {value.text} overflows {target.name}"
  | countOverflow left right =>
    s!"Overflow: value {left.toInt} + {right.toInt} overflows {DataType.integer.name}"
  | noSuchCast source target => s!"Type cast does not exist from {source.name} to {target.name}"
  | typeMismatch expected actual =>
    s!"Type error: expected {expected.name}, got {Value.nameOfType? actual}"
  | unresolvedExpression name => s!"Unresolved expression: {name}"
  | invalidExpression fault => s!"Invalid expression: {fault.message}"
  | schemaError fault => s!"Schema error: {fault.message}"
  | functionError fault => s!"Function error: {fault.message}"

end LogicalQuery
