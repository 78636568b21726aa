import LogicalQuery.Catalog.Basic
import LogicalQuery.Proofs.Outcome

/-!
# Growing catalogs

A catalog grows by definitions of databases, tables and functions. A definition does not replace
anything (`extends_define`), and one that fails leaves the catalog as it is
(`exists_settles_define`), so whatever a catalog finds it still finds after any sequence of
definitions (`extends_defineAll`).
-/

namespace LogicalQuery

open LogicalQuery.Text

/-! ### Tables of names -/

namespace NameTable

variable {α : Type}

/-- Spellings of one name find the same. -/
theorem find?_congr {t : NameTable α} {name other : String} (h : toLower name = toLower other) :
    t.find? name = t.find? other := by
  rw [find?, find?, h]

/-- A new entry stands at the end, and its name was free. -/
theorem insertNew?_eq_some_iff {t u : NameTable α} {name : String} {a : α} :
    t.insertNew? name a = some u ↔
      t.find? name = none ∧ ⟨t.entries ++ [(toLower name, a)]⟩ = u := by
  rw [insertNew?, contains]
  cases t.find? name <;> simp

/-- Other data under a name is found under every spelling of the name, if there is an entry, and
every other entry is found as before. -/
theorem find?_replace (t : NameTable α) (name : String) (a : α) (other : String) :
    (t.replace name a).find? other =
      if toLower other = toLower name then (t.find? other).map fun _ ↦ a else t.find? other := by
  obtain ⟨entries⟩ := t
  simp only [replace, find?]
  induction entries with
  | nil => simp
  | cons e entries ih =>
    obtain ⟨key, b⟩ := e
    have hkey : (if key == toLower name then (key, a) else (key, b)) =
        (key, if key == toLower name then a else b) := by split <;> rfl
    rw [List.map_cons, hkey, List.lookup_cons, List.lookup_cons]
    cases hother : toLower other == key with
    | false => exact ih
    | true =>
      obtain rfl := eq_of_beq hother
      by_cases heq : toLower other = toLower name <;> simp [heq]

end NameTable

namespace Catalog

/-! ### What definitions do -/

/-- What an operation defines in a catalog. -/
inductive Definition where
  /-- An empty database. -/
  | database (name : String)
  /-- A table in a database. -/
  | table (database : String) (schema : TableSchema)
  /-- A function. -/
  | function (name : String) (constructor : FunctionConstructor)

/-- Makes a definition. -/
def define : Definition → CatalogM Unit
  | .database name => createDatabase name
  | .table database schema => discard (createTable database schema)
  | .function name constructor => registerFunction name constructor

section

variable {c c' : Catalog}

/-- A database is defined if its name is free, and otherwise the catalog is as it was. -/
theorem settles_database (c : Catalog) (name : String) :
    Settles (define (.database name)) c
      (match c.databases.insertNew? name .empty with
      | some databases => .ok { c with databases }
      | none => .error (.schemaError (.databaseExists name))) := by
  refine .get ?_
  cases c.databases.insertNew? name .empty <;> rfl

/-- A table is defined if its database is there and its name is free in it, and otherwise the
catalog is as it was. -/
theorem settles_table (c : Catalog) (database : String) (schema : TableSchema) :
    Settles (define (.table database schema)) c
      (match c.databases.find? database with
      | none => .error (.schemaError (.noSuchDatabase database))
      | some tables =>
        match tables.insertNew? schema.name schema with
        | none => .error (.schemaError (.tableExists schema.name database))
        | some tables => .ok { c with databases := c.databases.replace database tables }) := by
  refine .discard_get ?_
  cases c.databases.find? database with
  | none => rfl
  | some tables =>
    dsimp only
    cases tables.insertNew? schema.name schema <;> rfl

/-- A function is defined if its name is free, and otherwise the catalog is as it was. -/
theorem settles_function (c : Catalog) (name : String) (f : FunctionConstructor) :
    Settles (define (.function name f)) c
      (match c.functions.insertNew? name f with
      | some functions => .ok { c with functions }
      | none => .error (.functionError (.alreadyRegistered name))) := by
  refine .get ?_
  cases c.functions.insertNew? name f <;> rfl

/-- **A definition that is refused leaves the catalog as it was.** -/
theorem exists_settles_define (c : Catalog) (d : Definition) : ∃ r, Settles (define d) c r := by
  cases d with
  | database name => exact ⟨_, settles_database c name⟩
  | table database schema => exact ⟨_, settles_table c database schema⟩
  | function name f => exact ⟨_, settles_function c name f⟩

theorem settles_database_ok_iff {name : String} :
    Settles (define (.database name)) c (.ok c') ↔
      ∃ databases, c.databases.insertNew? name .empty = some databases ∧
        { c with databases } = c' := by
  rw [(settles_database c name).iff]
  split <;> simp_all

theorem settles_table_ok_iff {database : String} {schema : TableSchema} :
    Settles (define (.table database schema)) c (.ok c') ↔
      ∃ tables tables', c.databases.find? database = some tables ∧
        tables.insertNew? schema.name schema = some tables' ∧
        { c with databases := c.databases.replace database tables' } = c' := by
  rw [(settles_table c database schema).iff]
  split
  next => simp_all
  next => split <;> simp_all

theorem settles_function_ok_iff {name : String} {f : FunctionConstructor} :
    Settles (define (.function name f)) c (.ok c') ↔
      ∃ functions, c.functions.insertNew? name f = some functions ∧
        { c with functions } = c' := by
  rw [(settles_function c name f).iff]
  split <;> simp_all

/-! ### What definitions do to look-ups -/

/-- Spellings of one database, and of one table in it, find the same. -/
theorem table?_congr {database database' name name' : String}
    (hdatabase : toLower database = toLower database') (hname : toLower name = toLower name') :
    c.table? database name = c.table? database' name' := by
  rw [table?, table?, NameTable.find?_congr hdatabase]
  exact Option.bind_congr fun tables _ ↦ NameTable.find?_congr hname

theorem function?_congr {name name' : String} (h : toLower name = toLower name') :
    c.function? name = c.function? name' :=
  NameTable.find?_congr h

theorem databaseExists_eq_false_iff {name : String} :
    c.databaseExists name = false ↔ c.databases.find? name = none := by
  rw [databaseExists, NameTable.contains, Option.isSome_eq_false_iff, Option.isNone_iff_eq_none]

/-- A new database is empty. Its name was free, and nothing else is new. -/
theorem of_settles_database {name : String} (h : Settles (define (.database name)) c (.ok c')) :
    c.databaseExists name = false ∧
    (∀ database, c'.databaseExists database = true ↔
      toLower database = toLower name ∨ c.databaseExists database = true) ∧
    (∀ database table, c'.table? database table = c.table? database table) ∧
    ∀ function, c'.function? function = c.function? function := by
  obtain ⟨databases, hinsert, rfl⟩ := settles_database_ok_iff.1 h
  have hfree : c.databases.find? name = none := (NameTable.insertNew?_eq_some_iff.1 hinsert).1
  have hfind := NameTable.find?_insertNew? hinsert
  refine ⟨databaseExists_eq_false_iff.2 hfree, fun database ↦ ?_, fun database table ↦ ?_,
    fun _ ↦ rfl⟩
  · simp only [databaseExists, NameTable.contains, hfind]
    by_cases heq : toLower database = toLower name <;> simp [heq]
  · by_cases heq : toLower database = toLower name
    · rw [← NameTable.find?_congr heq] at hfree
      rw [table?, table?, hfind, if_pos heq, hfree]
      rfl
    · rw [table?, table?, hfind, if_neg heq]

/-- A new table is found under every spelling of its database and of its name. The database was
there, the name was free in it, and nothing else is new. -/
theorem of_settles_table {database : String} {schema : TableSchema}
    (h : Settles (define (.table database schema)) c (.ok c')) :
    (c.databaseExists database = true ∧ c.table? database schema.name = none) ∧
    (∀ other, c'.databaseExists other = c.databaseExists other) ∧
    (∀ other table, c'.table? other table =
      if toLower other = toLower database ∧ toLower table = toLower schema.name then some schema
      else c.table? other table) ∧
    ∀ function, c'.function? function = c.function? function := by
  obtain ⟨tables, tables', htables, hinsert, rfl⟩ := settles_table_ok_iff.1 h
  have hfind := NameTable.find?_replace c.databases database tables'
  refine ⟨⟨?_, ?_⟩, fun other ↦ ?_, fun other table ↦ ?_, fun _ ↦ rfl⟩
  · rw [databaseExists, NameTable.contains, htables, Option.isSome_some]
  · rw [table?, htables]
    exact (NameTable.insertNew?_eq_some_iff.1 hinsert).1
  · simp only [databaseExists, NameTable.contains, hfind]
    split <;> simp
  · by_cases heq : toLower other = toLower database
    · have hold : c.databases.find? other = some tables :=
        (NameTable.find?_congr heq).trans htables
      simp only [table?, hfind, hold, heq, true_and]
      exact NameTable.find?_insertNew? hinsert table
    · simp only [table?, hfind, heq, false_and, if_false]

/-- A new function is found under every spelling of its name. The name was free, and nothing else is
new. -/
theorem of_settles_function {name : String} {f : FunctionConstructor}
    (h : Settles (define (.function name f)) c (.ok c')) :
    c.function? name = none ∧
    (∀ database, c'.databaseExists database = c.databaseExists database) ∧
    (∀ database table, c'.table? database table = c.table? database table) ∧
    ∀ function, c'.function? function =
      if toLower function = toLower name then some f else c.function? function := by
  obtain ⟨functions, hinsert, rfl⟩ := settles_function_ok_iff.1 h
  exact ⟨(NameTable.insertNew?_eq_some_iff.1 hinsert).1, fun _ ↦ rfl, fun _ _ ↦ rfl,
    NameTable.find?_insertNew? hinsert⟩

end

/-! ### Extensions -/

/-- The catalog after a sequence of definitions, each of which may be accepted or refused. -/
def defineAll (c : Catalog) (ds : List Definition) : Catalog :=
  ds.foldl (fun c d ↦ ((define d).run.run c).2) c

/-- The second catalog finds every table and every function that the first one finds. -/
structure Extends (c c' : Catalog) : Prop where
  table {database name : String} {schema : TableSchema} :
    c.table? database name = some schema → c'.table? database name = some schema
  function {name : String} {f : FunctionConstructor} :
    c.function? name = some f → c'.function? name = some f

variable {c c' c'' : Catalog}

theorem Extends.refl (c : Catalog) : c.Extends c := ⟨id, id⟩

theorem Extends.trans (h : c.Extends c') (h' : c'.Extends c'') : c.Extends c'' :=
  ⟨h'.table ∘ h.table, h'.function ∘ h.function⟩

theorem extends_database {name : String} (h : Settles (define (.database name)) c (.ok c')) :
    c.Extends c' := by
  obtain ⟨-, -, htable, hfunction⟩ := of_settles_database h
  exact ⟨fun ht ↦ (htable _ _).trans ht, fun hf ↦ (hfunction _).trans hf⟩

theorem extends_table {database : String} {schema : TableSchema}
    (h : Settles (define (.table database schema)) c (.ok c')) : c.Extends c' := by
  obtain ⟨⟨-, hfree⟩, -, htable, hfunction⟩ := of_settles_table h
  refine ⟨fun {other name found} ht ↦ ?_, fun hf ↦ (hfunction _).trans hf⟩
  rw [htable, if_neg, ht]
  rintro ⟨hdatabase, hname⟩
  rw [← table?_congr hdatabase hname, ht] at hfree
  exact nomatch hfree

theorem extends_function {name : String} {f : FunctionConstructor}
    (h : Settles (define (.function name f)) c (.ok c')) : c.Extends c' := by
  obtain ⟨hfree, -, htable, hfunction⟩ := of_settles_function h
  refine ⟨fun ht ↦ (htable _ _).trans ht, fun {other g} hg ↦ ?_⟩
  rw [hfunction, if_neg, hg]
  intro hname
  rw [← function?_congr hname, hg] at hfree
  exact nomatch hfree

theorem extends_define {d : Definition} (h : Settles (define d) c (.ok c')) : c.Extends c' := by
  cases d with
  | database name => exact extends_database h
  | table database schema => exact extends_table h
  | function name f => exact extends_function h

/-- **Nothing that a catalog finds is lost or replaced by definitions.** -/
theorem extends_defineAll (c : Catalog) (ds : List Definition) : c.Extends (c.defineAll ds) := by
  refine List.foldlRecOn ds _ (.refl c) fun c' h d _ ↦ h.trans ?_
  obtain ⟨r, hr⟩ := c'.exists_settles_define d
  rw [hr]
  cases r with
  | error _ => exact .refl c'
  | ok _ => exact extends_define hr

end Catalog

end LogicalQuery
