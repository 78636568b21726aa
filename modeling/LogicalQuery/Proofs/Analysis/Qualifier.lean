import LogicalQuery.Proofs.Analysis.Composition
import LogicalQuery.Proofs.Analysis.TableColumns
import LogicalQuery.Proofs.Catalog.History

/-!
# Tables as qualifiers

A table is found by the lower case of its name, but the qualifier of a column is compared with the
name of the table up to ASCII case alone. So a spelling that finds a table need not serve as a
qualifier for its columns: it does if and only if it agrees with the name up to ASCII case, as it
always does if both are ASCII (`Rule.resolveColumns_resolveTables`).
-/

namespace LogicalQuery

open LogicalQuery.Text

/-! ### Columns of a table -/

/-- Under a qualifier, the name of a column of the table is the name of this column alone, or of no
column. -/
theorem TableSchema.Proper.bindName?_eq {s : TableSchema} {i : Nat} {c : Column} (h : s.Proper)
    (hc : s.columns[i]? = some c) (qualifier : String) :
    Column.bindName? s.columns (some qualifier) c.name =
      if eqIgnoringAsciiCase s.name qualifier then some (c.bind i) else none := by
  have hfilter : s.columns.zipIdx.filter (fun d ↦ d.1.isNamed (some qualifier) c.name) =
      if eqIgnoringAsciiCase s.name qualifier then [(c, i)] else [] := by
    rw [Column.filter_isNamed, h.withName_eq hc, List.filter_singleton, Option.all_some,
      Column.comesFrom, h.source_eq c (List.mem_of_getElem? hc), Bool.cond_eq_ite]
  rw [Column.bindName?, hfilter]
  cases eqIgnoringAsciiCase s.name qualifier <;> rfl

/-! ### Operators over a table -/

/-- **A spelling of a table serves as a qualifier if and only if it is the name of the table up to
ASCII case.** -/
theorem TableSchema.Proper.bindColumn_eq {s : TableSchema} {i : Nat} {c : Column} (h : s.Proper)
    (hc : s.columns[i]? = some c) (qualifier : String) :
    Expr.bindColumn s.columns (.column (some qualifier) c.name) =
      if eqIgnoringAsciiCase s.name qualifier then c.bind i
      else .column (some qualifier) c.name := by
  rw [Expr.bindColumn, h.bindName?_eq hc]
  cases eqIgnoringAsciiCase s.name qualifier <;> rfl

namespace Plan

variable {ctx : Context} {p : Plan} {database : Option String} {name : String}
  {schema : TableSchema}

theorem transformUp_bindTable_eq (hp : p.children = [unresolvedTable database name])
    (htable : ctx.catalog.table? (database.getD ctx.currentDatabase) name = some schema) :
    p.transformUp (bindTable ctx) =
      p.mapChildren fun _ ↦ table (database.getD ctx.currentDatabase) schema := by
  have hinput : (unresolvedTable database name).transformUp (bindTable ctx) =
      table (database.getD ctx.currentDatabase) schema := by
    rw [transformUp_eq, mapChildren, bindTable, htable]
  have hmap : p.mapChildren (transformUp (bindTable ctx)) =
      p.mapChildren fun _ ↦ table (database.getD ctx.currentDatabase) schema :=
    mapChildren_congr fun c hc ↦ by
      rw [hp, List.mem_singleton] at hc
      rw [hc, hinput]
  rw [transformUp_eq, hmap]
  obtain heq | ⟨_, _, _, heq, -, -⟩ := bindTable_cases ctx
    (p.mapChildren fun _ ↦ table (database.getD ctx.currentDatabase) schema)
  · exact heq
  · have hchildren := children_mapChildren
      (fun _ ↦ table (database.getD ctx.currentDatabase) schema) p
    rw [heq, hp] at hchildren
    exact absurd hchildren.symm (List.cons_ne_nil _ _)

end Plan

/-! ### Rules -/

/-- Once the input of an operator is bound to a table, columns are bound over those of the table. -/
theorem Rule.resolveColumns_resolveTables_eq {ctx : Context} {p : Plan} {database : Option String}
    {name : String} {schema : TableSchema} (hp : p.children = [.unresolvedTable database name])
    (htable : ctx.catalog.table? (database.getD ctx.currentDatabase) name = some schema) :
    Rule.resolveColumns.apply ctx (Rule.resolveTables.apply ctx p) =
      (p.mapChildren fun _ ↦
        .table (database.getD ctx.currentDatabase) schema).transformExpressions
          (Expr.bindColumn schema.columns) := by
  show (p.transformUp (Plan.bindTable ctx)).transformUp Plan.bindColumns = _
  rw [Plan.transformUp_bindTable_eq hp htable]
  refine Plan.transformUp_bindColumns_eq (d := database.getD ctx.currentDatabase) ?_
  rw [Plan.children_mapChildren, hp]
  rfl

/-- The context of a catalog with the table `Übersicht`. -/
def overviewContext : Context :=
  (Analyzer.ofCatalog (Catalog.standard.after [.define (.table "default" Catalog.overview)])
    {}).toContext

theorem ofColumns_overview :
    TableSchema.ofColumns "Übersicht" [⟨"id", .integer, false, ""⟩] = .ok Catalog.overview :=
  rfl

/-- **A spelling that finds a table is a qualifier for its columns if and only if it is the name of
the table up to ASCII case.** In a catalog with any history, of tables made of columns, let a table
be found. Once the table is bound, the columns of an operator right above it are bound over the
columns of the table. There, the spelling of the table with the name of a column stands for the
column, if the spelling agrees with the name of the table up to ASCII case, as it does if both are
ASCII. It is left as it is otherwise. -/
theorem Rule.resolveColumns_resolveTables {initial : List Catalog.Definition} {start : Catalog}
    {ops : List Catalog.Operation} {ctx : Context} {p : Plan} {database : Option String}
    {name : String} {schema : TableSchema} {i : Nat} {c : Column}
    (hstart : Catalog.IsInitial initial start) (hcatalog : ctx.catalog = start.after ops)
    (hmade : ∀ d s, start.Accepts ops (.table d s) →
      ∃ n columns, TableSchema.ofColumns n columns = .ok s)
    (hp : p.children = [.unresolvedTable database name])
    (htable : ctx.catalog.table? (database.getD ctx.currentDatabase) name = some schema)
    (hc : schema.columns[i]? = some c) :
    Rule.resolveColumns.apply ctx (Rule.resolveTables.apply ctx p) =
      (p.mapChildren fun _ ↦
        .table (database.getD ctx.currentDatabase) schema).transformExpressions
          (Expr.bindColumn schema.columns) ∧
    Expr.bindColumn schema.columns (.column (some name) c.name) =
      (if eqIgnoringAsciiCase schema.name name then c.bind i else .column (some name) c.name) ∧
    (IsAscii schema.name → IsAscii name → eqIgnoringAsciiCase schema.name name = true) := by
  have hfind := htable
  rw [hcatalog] at hfind
  obtain ⟨hname, d, haccepts⟩ := Catalog.exists_accepts_of_table? hstart hfind
  obtain ⟨_, _, hcolumns⟩ := hmade d schema haccepts
  have hproper := TableSchema.proper_of_ofColumns hcolumns
  exact ⟨Rule.resolveColumns_resolveTables_eq hp htable, hproper.bindColumn_eq hc name,
    fun hascii hascii' ↦ (eqIgnoringAsciiCase_iff_of_isAscii hascii hascii').2 hname⟩

theorem Rule.resolveColumns_resolveTables_capital :
    Rule.resolveColumns.apply overviewContext (Rule.resolveTables.apply overviewContext
      (.project (.unresolvedTable none "ÜBERSICHT") [.column (some "ÜBERSICHT") "id"])) =
        .project (.table "default" Catalog.overview)
          [.field ⟨0, "Übersicht", "id", .integer, false⟩] := by
  have hmade (d : String) (s : TableSchema)
      (h : Catalog.standard.Accepts [.define (.table "default" Catalog.overview)] (.table d s)) :
      ∃ n columns, TableSchema.ofColumns n columns = .ok s := by
    obtain ⟨-, rfl⟩ : d = "default" ∧ s = Catalog.overview := by simpa using h.mem
    exact ⟨_, _, ofColumns_overview⟩
  have htable : overviewContext.catalog.table? "default" "ÜBERSICHT" = some Catalog.overview := by
    decide +kernel
  obtain ⟨hplan, hbind, -⟩ := Rule.resolveColumns_resolveTables (i := 0)
    (p := .project (.unresolvedTable none "ÜBERSICHT") [.column (some "ÜBERSICHT") "id"])
    .standard rfl hmade rfl htable rfl
  rw [if_pos (by decide)] at hbind
  rw [hplan]
  exact congrArg (fun e ↦ Plan.project (.table "default" Catalog.overview) [e]) hbind

/-- The table `Übersicht` is found as `übersicht`, which is no qualifier for its columns. -/
theorem Rule.resolveColumns_resolveTables_umlaut :
    overviewContext.catalog.table? "default" "übersicht" = some Catalog.overview ∧
    Rule.resolveColumns.apply overviewContext (Rule.resolveTables.apply overviewContext
      (.project (.unresolvedTable none "übersicht") [.column (some "übersicht") "id"])) =
        .project (.table "default" Catalog.overview) [.column (some "übersicht") "id"] := by
  have htable : overviewContext.catalog.table? "default" "übersicht" = some Catalog.overview := by
    decide +kernel
  refine ⟨htable, ?_⟩
  have hplan := Rule.resolveColumns_resolveTables_eq
    (p := .project (.unresolvedTable none "übersicht") [.column (some "übersicht") "id"]) rfl htable
  have hproper := TableSchema.proper_of_ofColumns ofColumns_overview
  have hbind := hproper.bindColumn_eq (i := 0) rfl "übersicht"
  rw [if_neg (by decide)] at hbind
  rw [hplan]
  exact congrArg (fun e ↦ Plan.project (.table "default" Catalog.overview) [e]) hbind

end LogicalQuery
