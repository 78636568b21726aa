import LogicalQuery.Proofs.Catalog.Growth
import Mathlib.Data.List.Induction
import Mathlib.Data.List.Nodup
import Mathlib.Data.String.Basic

/-!
# Histories of a catalog

A catalog is used by definitions and look-ups, in any order. All that it answers is determined by
the definitions that it has accepted, up to the case of names (`Represents`). A definition that is
accepted adds to them (`Represents.of_define`), and one that is refused leaves the catalog as it was
(`perform_of_ne_accepted`), so this holds after any history (`represents_after`). A catalog is thus
a map that is only ever added to (`answers_after`).
-/

namespace LogicalQuery

open LogicalQuery.Text

/-! ### Tables under their own names -/

namespace NameTable

/-- Every table is entered under its own name, and no name is entered twice. -/
structure Keyed (t : NameTable TableSchema) : Prop where
  nodup : (t.entries.map Prod.fst).Nodup
  key_eq : ∀ e ∈ t.entries, e.1 = toLower e.2.name

variable {t u : NameTable TableSchema} {schema : TableSchema}

theorem keyed_empty : (empty : NameTable TableSchema).Keyed := ⟨List.nodup_nil, nofun⟩

theorem Keyed.of_insertNew? (ht : t.Keyed) (h : t.insertNew? schema.name schema = some u) :
    u.Keyed := by
  obtain ⟨hfree, rfl⟩ := insertNew?_eq_some_iff.1 h
  rw [find?, List.lookup_eq_none_iff] at hfree
  refine ⟨?_, List.forall_mem_append.2 ⟨ht.key_eq, List.forall_mem_singleton.2 rfl⟩⟩
  rw [List.map_append, List.map_singleton, List.nodup_append_comm]
  refine List.nodup_cons.2 ⟨fun hmem ↦ ?_, ht.nodup⟩
  obtain ⟨e, he, heq⟩ := List.mem_map.1 hmem
  exact absurd heq.symm (by simpa using hfree e he)

theorem Keyed.mem_values_iff (ht : t.Keyed) :
    schema ∈ t.values ↔ t.find? schema.name = some schema := by
  rw [values, find?, List.mem_map]
  constructor
  · rintro ⟨⟨key, found⟩, hmem, rfl⟩
    obtain rfl : key = toLower found.name := ht.key_eq _ hmem
    obtain ⟨before, after, hentries⟩ := List.append_of_mem hmem
    rw [List.lookup_eq_some_iff]
    refine ⟨before, after, hentries, fun e he ↦ ?_⟩
    have hnodup := ht.nodup
    rw [hentries, List.map_append, List.map_cons, List.nodup_middle, List.nodup_cons] at hnodup
    rw [bne_iff_ne]
    intro heq
    exact hnodup.1 (List.mem_append_left _ (heq ▸ List.mem_map.2 ⟨e, he, rfl⟩))
  · intro hfind
    obtain ⟨before, after, hentries, -⟩ := List.lookup_eq_some_iff.1 hfind
    exact ⟨_, hentries ▸ List.mem_append_right before List.mem_cons_self, rfl⟩

/-- The names of tables in lower case are the names of the entries, so they differ. -/
theorem Keyed.nodup_names (ht : t.Keyed) : (t.values.map (·.name)).Nodup := by
  refine List.Nodup.of_map toLower ?_
  have hkeys : (t.values.map (·.name)).map toLower = t.entries.map Prod.fst := by
    rw [values, List.map_map, List.map_map]
    exact List.map_congr_left fun e he ↦ (ht.key_eq e he).symm
  rw [hkeys]
  exact ht.nodup

/-- As the names of tables differ, they are sorted strictly. -/
theorem Keyed.pairwise_sortedNames (ht : t.Keyed) :
    ((t.values.map (·.name)).mergeSort fun s t ↦ decide (s ≤ t)).Pairwise (· < ·) := by
  have hsorted := @List.pairwise_mergeSort String (fun s t ↦ decide (s ≤ t))
    (by simpa using fun _ _ _ ↦ String.le_trans) (by simpa using String.le_total)
    (t.values.map (·.name))
  have hnodup := (List.mergeSort_perm (t.values.map (·.name))
    (fun s t ↦ decide (s ≤ t))).nodup_iff.2 ht.nodup_names
  exact hsorted.imp₂ (fun _ _ hle hne ↦ lt_of_le_of_ne (of_decide_eq_true hle) hne) hnodup

end NameTable

namespace Catalog

/-! ### Operations -/

/-- What is done with a catalog: a definition, or a look-up. -/
inductive Operation where
  /-- A definition of a database, a table or a function. -/
  | define (d : Definition)
  /-- The question whether there is a database. -/
  | databaseExists (database : String)
  /-- The look-up of a table. -/
  | table (database name : String)
  /-- The names of the tables of a database. -/
  | tableNames (database : String)
  /-- The look-up of a function. -/
  | function (name : String)

/-- What comes of an operation. -/
inductive Answer where
  /-- The definition is accepted. -/
  | accepted
  /-- The definition is refused. -/
  | refused (e : Error)
  /-- Whether there is the database. -/
  | databaseExists (b : Bool)
  /-- The table, if there is one. -/
  | table (schema : Option TableSchema)
  /-- The names of tables. -/
  | tableNames (names : List String)
  /-- The function, if there is one. -/
  | function (f : Option FunctionConstructor)

/-- The answer to an operation, and the catalog after it. -/
def perform (c : Catalog) : Operation → Answer × Catalog
  | .define d =>
    match (define d).run.run c with
    | (.ok (), c') => (.accepted, c')
    | (.error e, c') => (.refused e, c')
  | .databaseExists database => (.databaseExists (c.databaseExists database), c)
  | .table database name => (.table (c.table? database name), c)
  | .tableNames database => (.tableNames (c.tableNames database), c)
  | .function name => (.function (c.function? name), c)

/-- The catalog after a sequence of operations. -/
def after (c : Catalog) (ops : List Operation) : Catalog :=
  ops.foldl (fun c op ↦ (c.perform op).2) c

/-- The answers to a sequence of operations. -/
def answers (c : Catalog) : List Operation → List Answer
  | [] => []
  | op :: ops => (c.perform op).1 :: (c.perform op).2.answers ops

variable {c c' start : Catalog}

theorem after_append_singleton (c : Catalog) (ops : List Operation) (op : Operation) :
    c.after (ops ++ [op]) = ((c.after ops).perform op).2 := by
  rw [after, List.foldl_append]
  rfl

theorem perform_define {d : Definition} {r : Except Error Catalog} (h : Settles (define d) c r) :
    c.perform (.define d) =
      match r with
      | .ok c' => (.accepted, c')
      | .error e => (.refused e, c) := by
  rw [perform, h]
  cases r <;> rfl

/-- Whatever is not accepted changes nothing. -/
theorem perform_of_ne_accepted {op : Operation} (h : (c.perform op).1 ≠ .accepted) :
    (c.perform op).2 = c := by
  cases op with
  | define d =>
    obtain ⟨r, hr⟩ := c.exists_settles_define d
    rw [perform_define hr] at h ⊢
    cases r with
    | ok _ => exact absurd rfl h
    | error _ => rfl
  | databaseExists _ | table _ _ | tableNames _ | function _ => rfl

/-- Only definitions are accepted. -/
theorem exists_define_of_accepted {op : Operation} (h : (c.perform op).1 = .accepted) :
    ∃ d, op = .define d ∧ Settles (define d) c (.ok (c.perform op).2) := by
  cases op with
  | define d =>
    obtain ⟨r, hr⟩ := c.exists_settles_define d
    rw [perform_define hr] at h ⊢
    cases r with
    | ok _ => exact ⟨d, rfl, hr⟩
    | error _ => exact nomatch h
  | databaseExists _ | table _ _ | tableNames _ | function _ => exact nomatch h

theorem exists_refused_iff {d : Definition} :
    (∃ e, (c.perform (.define d)).1 = .refused e) ↔ ∃ e, Settles (define d) c (.error e) := by
  obtain ⟨r, hr⟩ := c.exists_settles_define d
  rw [perform_define hr]
  simp only [hr.iff]
  cases r <;> simp

/-! ### Refusals -/

theorem exists_error_database_iff {name : String} :
    (∃ e, Settles (define (.database name)) c (.error e)) ↔ c.databaseExists name = true := by
  simp only [(settles_database c name).iff]
  rw [databaseExists, ← NameTable.insertNew?_eq_none_iff (a := .empty)]
  cases c.databases.insertNew? name .empty <;> simp

theorem exists_error_table_iff {database : String} {schema : TableSchema} :
    (∃ e, Settles (define (.table database schema)) c (.error e)) ↔
      c.databaseExists database = false ∨ ∃ taken, c.table? database schema.name = some taken := by
  simp only [(settles_table c database schema).iff]
  rw [databaseExists_eq_false_iff, table?]
  cases c.databases.find? database with
  | none => simp
  | some tables =>
    have htaken : (∃ taken, tables.find? schema.name = some taken) ↔
        tables.insertNew? schema.name schema = none := by
      rw [NameTable.insertNew?_eq_none_iff, NameTable.contains, Option.isSome_iff_exists]
    show _ ↔ _ ∨ ∃ taken, tables.find? schema.name = some taken
    rw [htaken]
    dsimp only
    cases tables.insertNew? schema.name schema <;> simp

theorem exists_error_function_iff {name : String} {f : FunctionConstructor} :
    (∃ e, Settles (define (.function name f)) c (.error e)) ↔ ∃ g, c.function? name = some g := by
  simp only [(settles_function c name f).iff]
  rw [function?, ← Option.isSome_iff_exists, ← NameTable.contains,
    ← NameTable.insertNew?_eq_none_iff (a := f)]
  cases c.functions.insertNew? name f <;> simp

/-! ### Accepted definitions -/

section

variable (K : Definition → Prop)

/-- A database of this name is defined. -/
def DefinesDatabase (name : String) : Prop :=
  ∃ n, K (.database n) ∧ toLower n = toLower name

/-- The table is defined, under this name in a database of this name. -/
def DefinesTable (database name : String) (schema : TableSchema) : Prop :=
  ∃ d, K (.table d schema) ∧ toLower d = toLower database ∧ toLower schema.name = toLower name

/-- The function is defined, under this name. -/
def DefinesFunction (name : String) (f : FunctionConstructor) : Prop :=
  ∃ n, K (.function n f) ∧ toLower n = toLower name

/-- What bars a definition: its name is taken, or its database is missing. -/
def Bars : Definition → Prop
  | .database name => DefinesDatabase K name
  | .table database schema =>
    ¬ DefinesDatabase K database ∨ ∃ taken, DefinesTable K database schema.name taken
  | .function name _ => ∃ taken, DefinesFunction K name taken

end

section

variable {K : Definition → Prop}

theorem definesDatabase_or_iff {name other : String} :
    DefinesDatabase (fun d ↦ K d ∨ d = .database name) other ↔
      DefinesDatabase K other ∨ toLower other = toLower name := by
  constructor
  · rintro ⟨n, hn | hn, hname⟩
    · exact .inl ⟨n, hn, hname⟩
    · obtain rfl := Definition.database.inj hn
      exact .inr hname.symm
  · rintro (⟨n, hn, hname⟩ | hname)
    · exact ⟨n, .inl hn, hname⟩
    · exact ⟨name, .inr rfl, hname.symm⟩

theorem definesTable_or_iff {database other table : String} {schema found : TableSchema} :
    DefinesTable (fun d ↦ K d ∨ d = .table database schema) other table found ↔
      DefinesTable K other table found ∨ schema = found ∧ toLower other = toLower database ∧
        toLower table = toLower schema.name := by
  constructor
  · rintro ⟨d, hd | hd, hdatabase, hname⟩
    · exact .inl ⟨d, hd, hdatabase, hname⟩
    · obtain ⟨rfl, rfl⟩ := Definition.table.inj hd
      exact .inr ⟨rfl, hdatabase.symm, hname.symm⟩
  · rintro (⟨d, hd, hlower⟩ | ⟨rfl, hdatabase, hname⟩)
    · exact ⟨d, .inl hd, hlower⟩
    · exact ⟨database, .inr rfl, hdatabase.symm, hname.symm⟩

theorem definesFunction_or_iff {name other : String} {f g : FunctionConstructor} :
    DefinesFunction (fun d ↦ K d ∨ d = .function name f) other g ↔
      DefinesFunction K other g ∨ f = g ∧ toLower other = toLower name := by
  constructor
  · rintro ⟨n, hn | hn, hname⟩
    · exact .inl ⟨n, hn, hname⟩
    · obtain ⟨rfl, rfl⟩ := Definition.function.inj hn
      exact .inr ⟨rfl, hname.symm⟩
  · rintro (⟨n, hn, hname⟩ | ⟨rfl, hname⟩)
    · exact ⟨n, .inl hn, hname⟩
    · exact ⟨name, .inr rfl, hname.symm⟩

end

/-! ### Representation -/

/-- The tables of all databases are entered under their own names. -/
def TablesKeyed (c : Catalog) : Prop :=
  ∀ database tables, c.databases.find? database = some tables → tables.Keyed

theorem TablesKeyed.of_define {d : Definition} (h : c.TablesKeyed)
    (hd : Settles (define d) c (.ok c')) : c'.TablesKeyed := by
  intro database tables hfind
  cases d with
  | database name =>
    obtain ⟨databases, hinsert, rfl⟩ := settles_database_ok_iff.1 hd
    rw [NameTable.find?_insertNew? hinsert] at hfind
    split at hfind
    next => exact Option.some.inj hfind ▸ NameTable.keyed_empty
    next => exact h database tables hfind
  | table name schema =>
    obtain ⟨old, new, hold, hinsert, rfl⟩ := settles_table_ok_iff.1 hd
    rw [NameTable.find?_replace] at hfind
    split at hfind
    next =>
      obtain ⟨-, -, rfl⟩ := Option.map_eq_some_iff.1 hfind
      exact (h name old hold).of_insertNew? hinsert
    next => exact h database tables hfind
  | function name f =>
    obtain ⟨_, -, rfl⟩ := settles_function_ok_iff.1 hd
    exact h database tables hfind

/-- The catalog finds what is defined, and nothing else. -/
structure Represents (K : Definition → Prop) (c : Catalog) : Prop where
  databaseExists_iff (name : String) : c.databaseExists name = true ↔ DefinesDatabase K name
  table?_iff (database name : String) (schema : TableSchema) :
    c.table? database name = some schema ↔ DefinesTable K database name schema
  function?_iff (name : String) (f : FunctionConstructor) :
    c.function? name = some f ↔ DefinesFunction K name f
  keyed : c.TablesKeyed

namespace Represents

variable {K : Definition → Prop} {d : Definition}

/-- A definition is refused if and only if it is barred. -/
theorem exists_error_iff (h : Represents K c) :
    (∃ e, Settles (define d) c (.error e)) ↔ Bars K d := by
  cases d with
  | database name =>
    rw [exists_error_database_iff, h.databaseExists_iff, Bars]
  | table database schema =>
    rw [exists_error_table_iff, Bars, ← h.databaseExists_iff, Bool.not_eq_true]
    simp only [h.table?_iff]
  | function name f =>
    rw [exists_error_function_iff, Bars]
    simp only [h.function?_iff]

/-- **What a catalog represents grows by the definitions that it accepts.** -/
theorem of_define (h : Represents K c) (hd : Settles (define d) c (.ok c')) :
    Represents (fun d' ↦ K d' ∨ d' = d) c' := by
  cases d with
  | database name =>
    obtain ⟨-, hdatabase, htable, hfunction⟩ := of_settles_database hd
    refine ⟨fun other ↦ ?_, fun other table found ↦ ?_, fun other g ↦ ?_, h.keyed.of_define hd⟩
    · rw [hdatabase, h.databaseExists_iff, definesDatabase_or_iff, or_comm]
    · rw [htable, h.table?_iff]
      simp [DefinesTable]
    · rw [hfunction, h.function?_iff]
      simp [DefinesFunction]
  | table database schema =>
    obtain ⟨⟨-, hfree⟩, hdatabase, htable, hfunction⟩ := of_settles_table hd
    refine ⟨fun other ↦ ?_, fun other table found ↦ ?_, fun other g ↦ ?_, h.keyed.of_define hd⟩
    · rw [hdatabase, h.databaseExists_iff]
      simp [DefinesDatabase]
    · rw [htable, definesTable_or_iff, ← h.table?_iff]
      split
      next heq =>
        rw [table?_congr heq.1 heq.2, hfree]
        simp [heq]
      next heq => simp [heq]
    · rw [hfunction, h.function?_iff]
      simp [DefinesFunction]
  | function name f =>
    obtain ⟨hfree, hdatabase, htable, hfunction⟩ := of_settles_function hd
    refine ⟨fun other ↦ ?_, fun other table found ↦ ?_, fun other g ↦ ?_, h.keyed.of_define hd⟩
    · rw [hdatabase, h.databaseExists_iff]
      simp [DefinesDatabase]
    · rw [htable, h.table?_iff]
      simp [DefinesTable]
    · rw [hfunction, definesFunction_or_iff, ← h.function?_iff]
      split
      next heq =>
        rw [function?_congr heq, hfree]
        simp [heq]
      next heq => simp [heq]

/-- The names of the tables of a database are in order, each once, and those of the tables that are
defined in it. -/
theorem tableNames_spec (h : Represents K c) (database : String) :
    (c.tableNames database).Pairwise (· < ·) ∧ ∀ name, name ∈ c.tableNames database ↔
      ∃ d schema, K (.table d schema) ∧ toLower d = toLower database ∧ schema.name = name := by
  have hdefined (name : String) : (∃ d schema, K (.table d schema) ∧ toLower d = toLower database ∧
      schema.name = name) ↔ ∃ schema, c.table? database name = some schema ∧
        schema.name = name := by
    simp only [h.table?_iff, DefinesTable]
    constructor
    · rintro ⟨d, schema, hK, hd, rfl⟩
      exact ⟨schema, ⟨d, hK, hd, rfl⟩, rfl⟩
    · rintro ⟨schema, ⟨d, hK, hd, -⟩, hname⟩
      exact ⟨d, schema, hK, hd, hname⟩
  simp only [hdefined, table?, tableNames]
  cases hfind : c.databases.find? database with
  | none => simp
  | some tables =>
    have hkeyed := h.keyed database tables hfind
    refine ⟨hkeyed.pairwise_sortedNames, fun name ↦ ?_⟩
    rw [List.mem_mergeSort, List.mem_map]
    constructor
    · rintro ⟨schema, hmem, rfl⟩
      exact ⟨schema, hkeyed.mem_values_iff.1 hmem, rfl⟩
    · rintro ⟨schema, hschema, rfl⟩
      exact ⟨schema, hkeyed.mem_values_iff.2 hschema, rfl⟩

end Represents

/-! ### Histories -/

/-- A catalog as it is made, with the definitions that it holds from the start. -/
inductive IsInitial : List Definition → Catalog → Prop
  | empty : IsInitial [] empty
  | standard : IsInitial
      [.database defaultDatabase, .function "count" .count, .function "first" .first] standard

/-- The definition is accepted in the course of the operations. -/
def Accepts (start : Catalog) (ops : List Operation) (d : Definition) : Prop :=
  ∃ before later, ops = before ++ .define d :: later ∧
    ((start.after before).perform (.define d)).1 = .accepted

/-- The definition holds from the start, or is accepted in the course of the operations. -/
def DefinedAfter (initial : List Definition) (start : Catalog) (ops : List Operation)
    (d : Definition) : Prop :=
  d ∈ initial ∨ start.Accepts ops d

variable {initial : List Definition} {ops : List Operation} {op : Operation} {d : Definition}

theorem not_accepts_nil : ¬ start.Accepts [] d := by
  rintro ⟨before, later, heq, -⟩
  exact absurd heq.symm (List.append_ne_nil_of_right_ne_nil _ (List.cons_ne_nil _ _))

theorem Accepts.mem (h : start.Accepts ops d) : .define d ∈ ops := by
  obtain ⟨before, later, rfl, -⟩ := h
  exact List.mem_append_right before List.mem_cons_self

theorem accepts_append_singleton_iff :
    start.Accepts (ops ++ [op]) d ↔
      start.Accepts ops d ∨ op = .define d ∧ ((start.after ops).perform op).1 = .accepted := by
  constructor
  · rintro ⟨before, later, heq, haccepted⟩
    -- The accepted definition is the last operation or stands before it.
    cases later using List.reverseRecOn with
    | nil =>
      obtain ⟨rfl, hop⟩ := List.append_inj' heq rfl
      obtain rfl := List.singleton_inj.1 hop
      exact .inr ⟨rfl, haccepted⟩
    | append_singleton later last =>
      rw [← List.cons_append, ← List.append_assoc] at heq
      exact .inl ⟨before, later, (List.append_inj' heq rfl).1, haccepted⟩
  · rintro (⟨before, later, rfl, haccepted⟩ | ⟨rfl, haccepted⟩)
    · exact ⟨before, later ++ [op], by rw [List.append_assoc, List.cons_append], haccepted⟩
    · exact ⟨ops, [], rfl, haccepted⟩

theorem represents_empty : Represents (fun _ ↦ False) empty := by
  refine ⟨fun _ ↦ ?_, fun _ _ _ ↦ ?_, fun _ _ ↦ ?_, nofun⟩
  · simp [DefinesDatabase, databaseExists, NameTable.contains, NameTable.find?, empty,
      NameTable.empty]
  · simp [DefinesTable, table?, NameTable.find?, empty, NameTable.empty]
  · simp [DefinesFunction, function?, NameTable.find?, empty, NameTable.empty]

/-- The standard catalog is the empty one after three definitions. -/
theorem represents_standard : Represents (· ∈ [.database defaultDatabase,
    .function "count" .count, .function "first" .first]) standard := by
  have hdatabase : Settles (define (.database defaultDatabase)) empty
      (.ok ⟨⟨[(defaultDatabase, .empty)]⟩, .empty⟩) := rfl
  have hcount : Settles (define (.function "count" .count)) ⟨⟨[(defaultDatabase, .empty)]⟩, .empty⟩
      (.ok ⟨⟨[(defaultDatabase, .empty)]⟩, ⟨[("count", .count)]⟩⟩) := rfl
  have hfirst : Settles (define (.function "first" .first))
      ⟨⟨[(defaultDatabase, .empty)]⟩, ⟨[("count", .count)]⟩⟩ (.ok standard) := rfl
  have h := ((represents_empty.of_define hdatabase).of_define hcount).of_define hfirst
  simpa only [List.mem_cons, List.not_mem_nil, or_false, false_or, or_assoc] using h

theorem IsInitial.represents (h : IsInitial initial start) : Represents (· ∈ initial) start := by
  cases h with
  | empty => simpa only [List.not_mem_nil] using represents_empty
  | standard => exact represents_standard

/-- **After any history, a catalog represents what was defined in its course.** -/
theorem represents_after (h : IsInitial initial start) (ops : List Operation) :
    Represents (DefinedAfter initial start ops) (start.after ops) := by
  induction ops using List.reverseRecOn with
  | nil =>
    have hnone : DefinedAfter initial start [] = (· ∈ initial) :=
      funext fun d ↦ propext (or_iff_left not_accepts_nil)
    rw [hnone]
    exact h.represents
  | append_singleton ops op ih =>
    rw [after_append_singleton]
    by_cases haccepted : ((start.after ops).perform op).1 = .accepted
    · obtain ⟨d, rfl, hd⟩ := exists_define_of_accepted haccepted
      have hmore : DefinedAfter initial start (ops ++ [.define d]) =
          fun d' ↦ DefinedAfter initial start ops d' ∨ d' = d := by
        funext d'
        simp [DefinedAfter, accepts_append_singleton_iff, haccepted, or_assoc, eq_comm]
      rw [hmore]
      exact ih.of_define hd
    · have hsame : DefinedAfter initial start (ops ++ [op]) = DefinedAfter initial start ops := by
        funext d
        simp [DefinedAfter, accepts_append_singleton_iff, haccepted]
      rw [hsame, perform_of_ne_accepted haccepted]
      exact ih

/-- A table that is found has been defined, under a spelling of the name. -/
theorem exists_accepts_of_table? (h : IsInitial initial start) {database name : String}
    {schema : TableSchema} (hfind : (start.after ops).table? database name = some schema) :
    toLower schema.name = toLower name ∧ ∃ d, start.Accepts ops (.table d schema) := by
  obtain ⟨d, hinitial | haccepts, -, hname⟩ := ((represents_after h ops).table?_iff ..).1 hfind
  · cases h with
    | empty => exact absurd hinitial List.not_mem_nil
    | standard => simp at hinitial
  · exact ⟨hname, d, haccepts⟩

/-- **A catalog is a map that is only ever added to.** What has been defined in the course of any
history is found under every spelling, and nothing else is. A definition is refused if and only if
what has been defined bars it, and one that is refused changes no later answer. -/
theorem answers_after (h : IsInitial initial start) (ops : List Operation) :
    (∀ op e later, ((start.after ops).perform op).1 = .refused e →
      (start.after ops).answers (op :: later) = .refused e :: (start.after ops).answers later) ∧
    (∀ d, (∃ e, ((start.after ops).perform (.define d)).1 = .refused e) ↔
      Bars (DefinedAfter initial start ops) d) ∧
    (∀ name, (start.after ops).databaseExists name = true ↔
      DefinesDatabase (DefinedAfter initial start ops) name) ∧
    (∀ database name schema, (start.after ops).table? database name = some schema ↔
      DefinesTable (DefinedAfter initial start ops) database name schema) ∧
    (∀ name f, (start.after ops).function? name = some f ↔
      DefinesFunction (DefinedAfter initial start ops) name f) ∧
    ∀ database, ((start.after ops).tableNames database).Pairwise (· < ·) ∧
      ∀ name, name ∈ (start.after ops).tableNames database ↔
        ∃ d schema, DefinedAfter initial start ops (.table d schema) ∧
          toLower d = toLower database ∧ schema.name = name := by
  have hrepresents := represents_after h ops
  refine ⟨fun op e later hrefused ↦ ?_, fun d ↦ ?_, hrepresents.databaseExists_iff,
    hrepresents.table?_iff, hrepresents.function?_iff, hrepresents.tableNames_spec⟩
  · have hchanged : ((start.after ops).perform op).2 = start.after ops :=
      perform_of_ne_accepted fun haccepted ↦ nomatch hrefused.symm.trans haccepted
    rw [answers, hrefused, hchanged]
  · rw [exists_refused_iff]
    exact hrepresents.exists_error_iff

/-- A table whose name is not spelled with the letters `a` to `z` alone. -/
def overview : TableSchema where
  name := "Übersicht"
  columns := [⟨"id", .integer, false, "Übersicht"⟩]

/-- A history in which the last two definitions are refused. -/
def overviewHistory : List Operation :=
  [.define (.database "Sales"), .define (.table "SALES" overview),
    .define (.table "sales" { overview with name := "ÜBERSICHT" }),
    .define (.function "COUNT" .first)]

theorem answers_after_overviewHistory :
    (standard.after overviewHistory).table? "sales" "übersicht" = some overview ∧
    (∃ e, ((standard.after overviewHistory).perform (.define (.database "SALES"))).1 =
      .refused e) ∧
    (standard.after overviewHistory).function? "COUNT" = some .count := by
  obtain ⟨-, hrefused, -, htable, hfunction, -⟩ :=
    answers_after IsInitial.standard overviewHistory
  have hdatabase : standard.Accepts overviewHistory (.database "Sales") := ⟨[], _, rfl, rfl⟩
  have hoverview : standard.Accepts overviewHistory (.table "SALES" overview) :=
    ⟨[.define (.database "Sales")], _, rfl, rfl⟩
  refine ⟨(htable _ _ _).2 ⟨"SALES", .inr hoverview, by decide, by decide +kernel⟩,
    (hrefused _).2 ⟨"Sales", .inr hdatabase, by decide⟩,
    (hfunction _ _).2 ⟨"count", .inl (.tail _ (.head _)), by decide⟩⟩

end Catalog

end LogicalQuery
