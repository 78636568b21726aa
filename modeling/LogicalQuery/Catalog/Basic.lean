import LogicalQuery.Catalog.NameTable
import LogicalQuery.Expr.Basic
import LogicalQuery.Schema

/-!
# The catalog

A catalog knows databases with their tables, and functions. Names are looked up in lower case, and
nothing is ever removed or overwritten. A function is registered as a constructor, which makes an
expression of the arguments of a call.
-/

namespace LogicalQuery

/-! ### Functions -/

/-- Makes the expression that a call with the given arguments stands for. -/
abbrev FunctionConstructor := List Expr → Except Error Expr

namespace FunctionConstructor

/-- The constructor of a function of one argument, under the name that its errors give. -/
def ofUnary (name : String) (f : Expr → Expr) : FunctionConstructor
  | [e] => .ok (f e)
  | es => .error (.functionError (.wrongArgumentCount name es.length))

/-- The constructor of the number of rows. -/
def count : FunctionConstructor := ofUnary "count" (.aggregate .count)

/-- The constructor of the first value. -/
def first : FunctionConstructor := ofUnary "first" (.aggregate .first)

end FunctionConstructor

/-! ### Catalogs -/

/-- The name of the database of a standard catalog. -/
def defaultDatabase : String := "default"

/-- The databases and functions that plans refer to. -/
structure Catalog where
  /-- The tables of each database. -/
  databases : NameTable (NameTable TableSchema)
  /-- The functions. -/
  functions : NameTable FunctionConstructor

namespace Catalog

/-- The catalog without databases and functions. -/
def empty : Catalog := ⟨.empty, .empty⟩

instance : EmptyCollection Catalog := ⟨empty⟩

/-- The catalog with an empty default database and the standard functions. -/
def standard : Catalog where
  databases := ⟨[(defaultDatabase, .empty)]⟩
  functions := ⟨[("count", .count), ("first", .first)]⟩

/-! ### Look-ups -/

/-- Whether there is a database of the name. -/
def databaseExists (c : Catalog) (name : String) : Bool := c.databases.contains name

/-- The table of a name in a database. -/
def table? (c : Catalog) (database name : String) : Option TableSchema := do
  (← c.databases.find? database).find? name

/-- The names of the tables of a database, sorted by code points. -/
def tableNames (c : Catalog) (database : String) : List String :=
  match c.databases.find? database with
  | some tables => (tables.values.map (·.name)).mergeSort fun s t ↦ decide (s ≤ t)
  | none => []

/-- The function of a name. -/
def function? (c : Catalog) (name : String) : Option FunctionConstructor :=
  c.functions.find? name

end Catalog

/-! ### Definitions -/

/-- A step that may fail on a catalog, which survives a failure. -/
abbrev CatalogM := ExceptT Error (StateM Catalog)

namespace Catalog

/-- Defines an empty database. -/
def createDatabase (name : String) : CatalogM Unit := do
  match (← get).databases.insertNew? name .empty with
  | some databases => modify fun c ↦ { c with databases }
  | none => throw (.schemaError (.databaseExists name))

/-- Defines a table in a database. -/
def createTable (database : String) (schema : TableSchema) : CatalogM TableSchema := do
  match (← get).databases.find? database with
  | none => throw (.schemaError (.noSuchDatabase database))
  | some tables =>
    match tables.insertNew? schema.name schema with
    | none => throw (.schemaError (.tableExists schema.name database))
    | some tables =>
      modify fun c ↦ { c with databases := c.databases.replace database tables }
      return schema

/-- Defines a function. -/
def registerFunction (name : String) (f : FunctionConstructor) : CatalogM Unit := do
  match (← get).functions.insertNew? name f with
  | some functions => modify fun c ↦ { c with functions }
  | none => throw (.functionError (.alreadyRegistered name))

end Catalog

end LogicalQuery
