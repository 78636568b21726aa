import LogicalQuery.Error
import LogicalQuery.Text.LowerCase

/-!
# Columns and tables

A table has a name and at least one column, and no two columns with the same name in lower case.
Columns are looked up by name up to the case of the letters `A` to `Z`.
-/

namespace LogicalQuery

open LogicalQuery.Text

/-- A column of a table or of the output of a plan. -/
structure Column where
  /-- The name of the column. -/
  name : String
  /-- The type of its values. -/
  type : DataType
  /-- Whether it may hold null. -/
  nullable : Bool
  /-- The table that it comes from, or the empty text. -/
  source : String
deriving DecidableEq

namespace Column

/-- A column that may hold null, with a name that is not empty. -/
def ofName (name : String) (type : DataType) : Except Error Column :=
  if name.isEmpty then .error (.schemaError .emptyColumnName)
  else .ok { name, type, nullable := true, source := "" }

/-- The column without null. -/
def notNull (c : Column) : Column := { c with nullable := false }

/-- Whether the column has the name, up to ASCII case. -/
def hasName (name : String) (c : Column) : Bool := eqIgnoringAsciiCase c.name name

/-- Whether the column comes from the table, up to ASCII case. -/
def comesFrom (table : String) (c : Column) : Bool := eqIgnoringAsciiCase c.source table

/-- The first column whose name in lower case is among `seen` or among the names before it. -/
def firstDuplicate? (seen : List String) : List Column → Option Column
  | [] => none
  | c :: cs =>
    if seen.contains (toLower c.name) then some c else firstDuplicate? (toLower c.name :: seen) cs

end Column

/-- A table by its name and its columns. -/
structure TableSchema where
  /-- The name of the table. -/
  name : String
  /-- The columns, in their order. -/
  columns : List Column
deriving DecidableEq

namespace TableSchema

/-- The table with the given columns, which become columns from this table. -/
def ofColumns (name : String) (columns : List Column) : Except Error TableSchema :=
  let columns := columns.map fun c ↦ { c with source := name }
  if columns.isEmpty then .error (.schemaError .noColumns)
  else
    match Column.firstDuplicate? [] columns with
    | some c => .error (.schemaError (.duplicateColumn c.name))
    | none => .ok { name, columns }

/-- The first column of the name. -/
def column? (s : TableSchema) (name : String) : Option Column :=
  s.columns.find? (Column.hasName name)

/-- The position of the first column of the name. -/
def columnIndex? (s : TableSchema) (name : String) : Option Nat :=
  s.columns.findIdx? (Column.hasName name)

end TableSchema

end LogicalQuery
