import LogicalQuery.Proofs.Analysis.Diagnosis
import LogicalQuery.Proofs.Text.LowerCase

/-!
# The columns of a table

A table is made of columns whose names differ in lower case, but its columns are looked up by name up
to ASCII case alone. Names that agree up to ASCII case have one lower case, whatever other letters
they have, so a name finds at most one column of a table. Both lookups return this column, and the
name without a qualifier is bound to it in every operator right above the table
(`TableSchema.ofColumns_finds`). The condition on the names is more than this needs: `K` and the
Kelvin sign are one name in lower case, and two names in lookups.
-/

namespace LogicalQuery

open LogicalQuery.Text

/-! ### Columns -/

namespace Column

/-- The columns of the name, up to ASCII case, with their positions. -/
def withName (name : String) (columns : List Column) : List (Column × Nat) :=
  columns.zipIdx.filter fun d ↦ d.1.hasName name

/-- Columns have no duplicate if and only if their names differ in lower case, and are not among
those before. -/
theorem firstDuplicate?_eq_none_iff {seen : List String} {cs : List Column} :
    firstDuplicate? seen cs = none ↔
      (cs.map fun c ↦ toLower c.name).Nodup ∧ ∀ c ∈ cs, toLower c.name ∉ seen := by
  induction cs generalizing seen with
  | nil => exact iff_of_true rfl ⟨List.nodup_nil, nofun⟩
  | cons c cs ih =>
    have hsplit : (∀ d ∈ cs, toLower d.name ∉ toLower c.name :: seen) ↔
        toLower c.name ∉ cs.map (fun d ↦ toLower d.name) ∧ ∀ d ∈ cs, toLower d.name ∉ seen := by
      simp only [List.mem_cons, not_or, List.mem_map, not_exists, not_and, forall_and]
    rw [firstDuplicate?, List.map_cons, List.nodup_cons, List.forall_mem_cons]
    by_cases hc : toLower c.name ∈ seen
    · rw [if_pos (List.contains_iff_mem.2 hc)]
      exact iff_of_false (Option.some_ne_none c) fun h ↦ h.2.1 hc
    · rw [if_neg (mt List.contains_iff_mem.1 hc), ih, hsplit]
      tauto

/-- Among columns whose names differ in lower case, at most one has a given name. -/
theorem length_withName_le_one {columns : List Column}
    (h : (columns.map fun c ↦ toLower c.name).Nodup) (name : String) :
    (withName name columns).length ≤ 1 := by
  -- All of them have the lower case of the given name, which occurs once.
  have hreplicate : ((columns.filter (hasName name)).map fun c ↦ toLower c.name) =
      List.replicate (columns.filter (hasName name)).length (toLower name) :=
    List.map_eq_replicate_iff.2 fun c hc ↦
      toLower_eq_of_eqIgnoringAsciiCase (List.mem_filter.1 hc).2
  have hnodup : ((columns.filter (hasName name)).map fun c ↦ toLower c.name).Nodup :=
    h.sublist (List.filter_sublist.map _)
  rw [hreplicate, List.nodup_replicate, ← map_fst_filter_zipIdx, List.length_map] at hnodup
  exact hnodup

theorem filter_isNamed (table : Option String) (name : String) (columns : List Column) :
    columns.zipIdx.filter (fun d ↦ d.1.isNamed table name) =
      (withName name columns).filter fun d ↦ table.all fun t ↦ d.1.comesFrom t := by
  rw [withName, List.filter_filter]
  exact List.filter_congr fun d _ ↦ Bool.and_comm _ _

end Column

/-! ### Tables -/

namespace TableSchema

/-- The columns come from the table and have names that differ in lower case. -/
structure Proper (s : TableSchema) : Prop where
  source_eq : ∀ c ∈ s.columns, c.source = s.name
  nodup : (s.columns.map fun c ↦ toLower c.name).Nodup

/-- What the name finds in the table: the only column of the name with its position, if there is
one. The lookups return the column and the position, and the name without a qualifier is bound to
it. -/
structure Finds (s : TableSchema) (name : String) (found : Option (Column × Nat)) : Prop where
  withName : Column.withName name s.columns = found.toList
  column? : s.column? name = found.map Prod.fst
  columnIndex? : s.columnIndex? name = found.map Prod.snd
  bindColumn : Expr.bindColumn s.columns (.column none name) =
    found.elim (.column none name) fun d ↦ d.1.bind d.2

variable {s : TableSchema} {name : String} {columns : List Column} {i : Nat} {c : Column}

/-- Columns make a table if and only if there is one, and their names differ in lower case. -/
theorem ofColumns_eq_ok_iff : ofColumns name columns = .ok s ↔
    columns ≠ [] ∧ (columns.map fun c ↦ toLower c.name).Nodup ∧
      s = ⟨name, columns.map fun c ↦ { c with source := name }⟩ := by
  have hkeys : ((columns.map fun c ↦ { c with source := name }).map fun c ↦ toLower c.name) =
      columns.map fun c ↦ toLower c.name := List.map_map
  have hfirst := @Column.firstDuplicate?_eq_none_iff []
    (columns.map fun c ↦ { c with source := name })
  rw [hkeys, and_iff_left fun _ _ ↦ List.not_mem_nil] at hfirst
  rw [ofColumns, ← hfirst]
  cases columns with
  | nil => exact iff_of_false nofun fun h ↦ h.1 rfl
  | cons c cs =>
    rw [if_neg (by simp)]
    cases Column.firstDuplicate? [] ((c :: cs).map fun c ↦ { c with source := name }) with
    | some d => exact iff_of_false nofun fun h ↦ nomatch h.2.1
    | none =>
      rw [Except.ok.injEq, and_iff_right (List.cons_ne_nil c cs), and_iff_right rfl]
      exact eq_comm

theorem proper_of_ofColumns (h : ofColumns name columns = .ok s) : s.Proper := by
  obtain ⟨-, hnodup, rfl⟩ := ofColumns_eq_ok_iff.1 h
  refine ⟨fun c hc ↦ ?_, ?_⟩
  · obtain ⟨_, -, rfl⟩ := List.mem_map.1 hc
    rfl
  · rw [List.map_map]
    exact hnodup

/-- The first column of a name is the first of all columns of this name. -/
theorem column?_eq (s : TableSchema) (name : String) :
    s.column? name = (Column.withName name s.columns).head?.map Prod.fst := by
  rw [column?, Column.withName, ← List.head?_map, Column.map_fst_filter_zipIdx, List.head?_filter]

theorem columnIndex?_eq (s : TableSchema) (name : String) :
    s.columnIndex? name = (Column.withName name s.columns).head?.map Prod.snd := by
  rw [columnIndex?, Column.withName, List.head?_filter]
  exact List.findIdx?_eq_fst_find?_zipIdx

/-- A name finds one column of a table or none. -/
theorem Proper.exists_finds (h : s.Proper) (name : String) : ∃ found, s.Finds name found := by
  obtain ⟨found, hfound⟩ : ∃ found : Option (Column × Nat),
      Column.withName name s.columns = found.toList := by
    have hlength := Column.length_withName_le_one h.nodup name
    generalize Column.withName name s.columns = all at hlength ⊢
    rcases all with _ | ⟨d, _ | ⟨d', rest⟩⟩
    · exact ⟨none, rfl⟩
    · exact ⟨some d, rfl⟩
    · exact absurd hlength (by simp)
  refine ⟨found, hfound, ?_, ?_, ?_⟩
  · rw [column?_eq, hfound, Option.head?_toList]
  · rw [columnIndex?_eq, hfound, Option.head?_toList]
  · have hnamed : s.columns.zipIdx.filter (fun d ↦ d.1.isNamed none name) = found.toList := by
      rw [Column.filter_isNamed, hfound]
      exact List.filter_true _
    rw [Expr.bindColumn, Column.bindName?, hnamed]
    cases found <;> rfl

/-- A column is the only one with its name, up to ASCII case. -/
theorem Proper.withName_eq (h : s.Proper) (hc : s.columns[i]? = some c) :
    Column.withName c.name s.columns = [(c, i)] := by
  have hmem : (c, i) ∈ Column.withName c.name s.columns :=
    List.mem_filter.2 ⟨List.mem_zipIdx_iff_getElem?.2 hc, beq_self_eq_true _⟩
  obtain ⟨d, hd⟩ := List.length_eq_one_iff.1 <|
    (Column.length_withName_le_one h.nodup c.name).antisymm (List.length_pos_of_mem hmem)
  rw [hd, List.mem_singleton] at hmem
  rw [hd, hmem]

end TableSchema

/-! ### Operators over a table -/

/-- Over a table, columns are bound over the columns of the table. -/
theorem Plan.transformUp_bindColumns_eq {p : Plan} {d : String} {schema : TableSchema}
    (hp : p.children = [table d schema]) :
    p.transformUp bindColumns = p.transformExpressions (Expr.bindColumn schema.columns) := by
  have hmap : p.mapChildren (transformUp bindColumns) = p := by
    refine mapChildren_eq_self ?_
    rw [hp]
    rfl
  have hcolumns : p.inputSchema? = some schema.columns :=
    inputSchema?_of_mem_children (c := table d schema) (hp ▸ List.mem_singleton_self _) rfl
  rw [transformUp_eq, hmap, bindColumns, hcolumns]

/-- **No name is ambiguous in a table.** Columns make a table if and only if there is at least one
and no two of them have the same name in lower case. Every name finds at most one column of the
table, and lookups agree on it. An operator right above the table is bound over the columns of the
table, where a name without a qualifier stands for the column that it finds, and is left as it is if
it finds none. -/
theorem TableSchema.ofColumns_finds (name : String) (columns : List Column) (s : TableSchema) :
    (ofColumns name columns = .ok s ↔ columns ≠ [] ∧
      (columns.map fun c ↦ toLower c.name).Nodup ∧
      s = ⟨name, columns.map fun c ↦ { c with source := name }⟩) ∧
    (ofColumns name columns = .ok s →
      (∀ n, ∃ found, s.Finds n found) ∧
      ∀ (ctx : Context) (database : String) (p : Plan), p.children = [.table database s] →
        Rule.resolveColumns.apply ctx p = p.transformExpressions (Expr.bindColumn s.columns)) :=
  ⟨ofColumns_eq_ok_iff, fun h ↦ ⟨(proper_of_ofColumns h).exists_finds,
    fun _ _ _ hp ↦ Plan.transformUp_bindColumns_eq hp⟩⟩

/-- The `ö` of a name is compared as it is, and the letters around it up to case. -/
theorem TableSchema.ofColumns_finds_umlaut :
    let sizes : TableSchema :=
      ⟨"sizes", [⟨"ID", .integer, false, "sizes"⟩, ⟨"Größe", .string, true, "sizes"⟩]⟩
    let ctx := (Analyzer.ofCatalog .standard {}).toContext
    ofColumns "sizes" [⟨"ID", .integer, false, ""⟩, ⟨"Größe", .string, true, ""⟩] = .ok sizes ∧
      sizes.columnIndex? "GRößE" = some 1 ∧ sizes.columnIndex? "GRÖßE" = none ∧
      Rule.resolveColumns.apply ctx (.filter (.table "default" sizes)
        (.comparison .eq (.column none "GRößE") (.column none "GRÖßE"))) =
          .filter (.table "default" sizes) (.comparison .eq
            (.field ⟨1, "sizes", "Größe", .string, true⟩) (.column none "GRÖßE")) := by
  intro sizes ctx
  obtain ⟨hiff, hfinds⟩ := ofColumns_finds "sizes"
    [⟨"ID", .integer, false, ""⟩, ⟨"Größe", .string, true, ""⟩] sizes
  have hok := hiff.2 ⟨List.cons_ne_nil _ _, by decide +kernel, rfl⟩
  obtain ⟨hfinds, hplan⟩ := hfinds hok
  obtain ⟨found, hfound⟩ := hfinds "GRößE"
  obtain ⟨missed, hmissed⟩ := hfinds "GRÖßE"
  obtain rfl : found = some (⟨"Größe", .string, true, "sizes"⟩, 1) :=
    Option.toList_eq_singleton_iff.1 hfound.withName.symm
  obtain rfl : missed = none := Option.toList_eq_nil_iff.1 hmissed.withName.symm
  refine ⟨hok, hfound.columnIndex?, hmissed.columnIndex?, ?_⟩
  rw [hplan ctx "default" _ rfl]
  exact congrArg₂ (fun l r ↦ Plan.filter (.table "default" sizes) (.comparison .eq l r))
    hfound.bindColumn hmissed.bindColumn

end LogicalQuery
