import LogicalQuery.Proofs.Analysis.Convergence
import LogicalQuery.Proofs.Analysis.Invariant

/-!
# Why an analysis fails

An analysis that ends with something unbound gives the operator nearest to the table that is not
resolved. There is a reason for it in that operator itself: the catalog does not have the table, or
the input is resolved and one of the expressions has an *obstacle* in it, which is a name without a
unique column, a call that the catalog does not accept, a star out of place, or a cast that is not
in the registry (`exists_obstacle_of_analyze`). It is found by going down from the operator to the
first node at which no rule has anything to do.
-/

namespace LogicalQuery

/-! ### Columns -/

/-- Columns are filtered in the same way with and without their positions. -/
theorem Column.map_fst_filter_zipIdx (keep : Column → Bool) (columns : List Column) :
    (columns.zipIdx.filter fun d ↦ keep d.1).map Prod.fst = columns.filter keep := by
  conv_rhs => rw [← List.zipIdx_map_fst 0 columns]
  exact List.filter_map.symm

/-- A name that is not bound is the name of no column or of several columns. -/
theorem Column.length_filter_of_bindName?_eq_none {columns : List Column} {table : Option String}
    {name : String} (h : bindName? columns table name = none) :
    (columns.filter (isNamed table name)).length = 0 ∨
      2 ≤ (columns.filter (isNamed table name)).length := by
  rw [← map_fst_filter_zipIdx, List.length_map]
  unfold bindName? at h
  generalize columns.zipIdx.filter (fun c ↦ c.1.isNamed table name) = found at h ⊢
  rcases found with _ | ⟨x, _ | ⟨y, found⟩⟩
  · exact .inl rfl
  · cases h
  · exact .inr (Nat.le_add_left 2 found.length)

namespace Expr

/-! ### Obstacles -/

/-- What keeps an expression over the given columns from being resolved, at its root or right below
it. -/
inductive Obstacle (ctx : Context) (cs : List Column) : Expr → Prop
  /-- The name of no column, or of several columns. -/
  | column {table : Option String} {name : String}
      (h : (cs.filter (Column.isNamed table name)).length = 0 ∨
        2 ≤ (cs.filter (Column.isNamed table name)).length) : Obstacle ctx cs (.column table name)
  /-- A function that is not registered, or a number of arguments other than one. -/
  | call {name : String} {args : List Expr}
      (h : ctx.catalog.function? name = none ∨ args.length ≠ 1) : Obstacle ctx cs (.call name args)
  /-- A star right below a node other than `count`. -/
  | star {e : Expr} (h : star ∈ e.children) (he : e ≠ aggregate .count star) : Obstacle ctx cs e
  /-- A cast of a resolved child to another type, for which there is no cast. -/
  | cast {child : Expr} {source target : DataType} (hchild : child.resolved = true)
      (hsource : child.dataType = .ok source) (hne : source ≠ target)
      (h : ctx.casts.contains source target = false) : Obstacle ctx cs (.cast child target none)

variable {ctx : Context} {cs : List Column}

theorem obstacle_of_bindColumn_eq {table : Option String} {name : String}
    (h : (column table name).bindColumn cs = column table name) :
    Obstacle ctx cs (column table name) := by
  rw [bindColumn] at h
  cases hname : Column.bindName? cs table name with
  | none => exact .column (Column.length_filter_of_bindName?_eq_none hname)
  | some e =>
    obtain ⟨c, index, -, -, rfl⟩ := Column.exists_of_bindName? hname
    rw [hname] at h
    exact nomatch h

theorem obstacle_of_bindCall_eq (hc : ctx.catalog.OnlyAggregates) {name : String}
    {args : List Expr} (h : (call name args).bindCall ctx.catalog = call name args) :
    Obstacle ctx cs (call name args) := by
  refine .call ?_
  cases hf : ctx.catalog.function? name with
  | none => exact .inl rfl
  | some f =>
    -- Either aggregate would have accepted a single argument.
    refine .inr fun hlength ↦ ?_
    obtain ⟨arg, rfl⟩ := List.length_eq_one_iff.1 hlength
    rw [bindCall, hf] at h
    rcases hc name f hf with rfl | rfl
    · exact nomatch h
    · exact nomatch h

theorem obstacle_of_bindCast_eq {child : Expr} {target : DataType}
    (hchild : child.resolved = true)
    (h : (cast child target none).bindCast ctx.casts = cast child target none) :
    Obstacle ctx cs (cast child target none) := by
  obtain ⟨source, hsource⟩ := exists_dataType?_of_named (named_of_resolved hchild)
  rw [bindCast, if_pos hchild, hsource] at h
  cases hf : ctx.casts.function source target with
  | ok function =>
    simp only [hf, cast.injEq, reduceCtorEq, and_false] at h
  | error err =>
    rw [CastRegistry.function] at hf
    split at hf
    next => cases hf
    next hne =>
      refine .cast hchild (dataType?_eq_some_iff.1 hsource) hne ?_
      split at hf
      next => cases hf
      next hfind =>
        rw [CastRegistry.contains, Bool.eq_false_iff]
        intro hany
        obtain ⟨c, hmem, hc⟩ := List.any_eq_true.1 hany
        exact List.find?_eq_none.1 hfind c hmem hc

/-- Where no rule has anything to do, an expression that is not resolved is a star, or there is an
obstacle in it. -/
theorem exists_obstacle (hc : ctx.catalog.OnlyAggregates) {e : Expr} (he : e.resolved = false)
    (hcolumn : e.All fun s ↦ s.bindColumn cs = s) (hcall : e.All fun s ↦ s.bindCall ctx.catalog = s)
    (hcast : e.All fun s ↦ s.bindCast ctx.casts = s) :
    e = star ∨ ∃ s ∈ e.subexprs, Obstacle ctx cs s := by
  induction e using children_induction with
  | node e ih =>
    have hchild {c : Expr} (hmem : c ∈ e.children) (hresolved : c.resolved = false)
        (hcount : e ≠ aggregate .count star) : ∃ s ∈ e.subexprs, Obstacle ctx cs s := by
      rcases ih c hmem hresolved (hcolumn.children hmem) (hcall.children hmem)
        (hcast.children hmem) with rfl | ⟨s, hs, hobstacle⟩
      · exact ⟨e, e.self_mem_subexprs, .star hmem hcount⟩
      · exact ⟨s, mem_subexprs_iff.2 (.inr ⟨c, hmem, hs⟩), hobstacle⟩
    cases e with
    | literal _ _ | field _ => cases he
    | star => exact .inl rfl
    | column table name => exact .inr ⟨_, self_mem_subexprs _, obstacle_of_bindColumn_eq hcolumn.self⟩
    | call name args => exact .inr ⟨_, self_mem_subexprs _, obstacle_of_bindCall_eq hc hcall.self⟩
    | renamed c _ | not c => exact .inr (hchild List.mem_cons_self he (by simp))
    | comparison _ l r =>
      rw [resolved, Bool.and_eq_false_iff] at he
      rcases he with he | he
      · exact .inr (hchild (by simp [children]) he (by simp))
      · exact .inr (hchild (by simp [children]) he (by simp))
    | cast c t b =>
      cases hresolved : c.resolved with
      | false => exact .inr (hchild List.mem_cons_self hresolved (by simp))
      | true =>
        rw [resolved, hresolved, Bool.and_true, Option.isSome_eq_false_iff, Option.isNone_iff_eq_none]
          at he
        subst he
        exact .inr ⟨_, self_mem_subexprs _, obstacle_of_bindCast_eq hresolved hcast.self⟩
    | aggregate g c =>
      have hcount : aggregate g c ≠ aggregate .count star := by
        rintro heq
        rw [heq] at he
        cases he
      rw [resolved, Bool.or_eq_false_iff] at he
      exact .inr (hchild List.mem_cons_self he.2 hcount)

end Expr

/-! ### Plans -/

namespace Plan

/-- The innermost operator that is not resolved has resolved inputs. -/
theorem innermostUnresolved_spec {p : Plan} (h : p.resolved = false) :
    p.innermostUnresolved ∈ p.operators ∧ p.innermostUnresolved.resolved = false ∧
      ∀ c ∈ p.innermostUnresolved.children, c.resolved = true := by
  induction p with
  | unresolvedTable _ _ => exact ⟨self_mem_operators _, h, fun c hc ↦ absurd hc List.not_mem_nil⟩
  | table _ _ => exact nomatch h
  | project c _ ih | filter c _ ih | groupBy c _ _ ih | sort c _ ih | limit c _ ih
  | offset c _ ih =>
    rw [innermostUnresolved]
    cases hc : c.resolved with
    | true =>
      refine ⟨self_mem_operators _, h, fun c' hc' ↦ ?_⟩
      obtain rfl := List.mem_singleton.1 hc'
      exact hc
    | false =>
      obtain ⟨hmem, hspec⟩ := ih hc
      exact ⟨mem_operators_iff.2 (.inr ⟨c, List.mem_cons_self, hmem⟩), hspec⟩

/-- Whether the operator is a projection. -/
def isProject : Plan → Bool
  | project _ _ => true
  | _ => false

theorem exists_mem_children_of_mem_expressions {p : Plan} {e : Expr} (he : e ∈ p.expressions) :
    ∃ c, c ∈ p.children := by
  cases p with
  | unresolvedTable _ _ | table _ _ | limit _ _ | offset _ _ => exact absurd he List.not_mem_nil
  | project c _ | filter c _ | groupBy c _ _ | sort c _ => exact ⟨c, List.mem_cons_self⟩

/-- The input of an operator that is resolved determines the columns over which names are bound. -/
theorem inputSchema?_of_mem_children {p c : Plan} (hc : c ∈ p.children) {cs : List Column}
    (hcs : c.resolvedSchema? = some cs) : p.inputSchema? = some cs := by
  cases p with
  | unresolvedTable _ _ | table _ _ => exact absurd hc List.not_mem_nil
  | project _ _ | filter _ _ | groupBy _ _ _ | sort _ _ | limit _ _ | offset _ _ =>
    obtain rfl := List.mem_singleton.1 hc
    simp [inputSchema?, children, hcs]

/-- An operator that is not resolved over resolved inputs is a table by its name, or one of its
expressions is not resolved. -/
theorem exists_not_resolved {p : Plan} (h : p.resolved = false)
    (hchildren : ∀ c ∈ p.children, c.resolved = true) :
    (∃ database name, p = unresolvedTable database name) ∨
      ∃ e ∈ p.expressions, e.resolved = false := by
  cases htable : p.isUnresolvedTable with
  | true =>
    cases p with
    | unresolvedTable database name => exact .inl ⟨database, name, rfl⟩
    | _ => exact nomatch htable
  | false =>
    refine .inr ?_
    by_contra hall
    have hexprs (e : Expr) (he : e ∈ p.expressions) : e.resolved = true :=
      Bool.of_not_eq_false fun hfalse ↦ hall ⟨e, he, hfalse⟩
    exact Bool.false_ne_true (h.symm.trans (resolved_iff.2 ⟨htable, hexprs, hchildren⟩))

end Plan

namespace Expr

/-- The expansion of stars leaves no star. -/
theorem isStar_eq_false_of_mem_expandStars {columns : List Column} {es : List Expr} {e : Expr}
    (h : e ∈ expandStars columns es) : e.isStar = false := by
  obtain ⟨e', -, h⟩ := List.mem_flatMap.1 h
  split at h
  next =>
    obtain ⟨⟨c, index⟩, -, rfl⟩ := List.mem_map.1 h
    rfl
  next hstar =>
    obtain rfl := List.mem_singleton.1 h
    exact Bool.eq_false_iff.2 hstar

end Expr

/-- Over a resolved input, a star that is left at the root of an expression is not one of a
projection. -/
theorem Plan.isProject_eq_false_of_expandStars_eq {n c : Plan} (h : n.expandStars = n)
    (hc : c ∈ n.children) {cs : List Column} (hcs : c.resolvedSchema? = some cs)
    (hstar : .star ∈ n.expressions) : n.isProject = false := by
  cases n with
  | project input es =>
    obtain rfl := List.mem_singleton.1 hc
    rw [expandStars, hcs] at h
    have hes : Expr.expandStars cs es = es := (project.inj h).2
    have hmem : Expr.star ∈ Expr.expandStars cs es := hes.symm ▸ hstar
    exact nomatch Expr.isStar_eq_false_of_mem_expandStars hmem
  | _ => rfl

namespace Analyzer

variable {a : Analyzer}

/-- A table by its name that a pass leaves is not in the catalog. -/
theorem table?_eq_none_of_pass_eq (hrules : a.rules = Rule.standard)
    (hc : a.catalog.OnlyAggregates) {q : Plan} (hpass : a.pass q = q) {database : Option String}
    {name : String} (hmem : .unresolvedTable database name ∈ q.operators) :
    a.catalog.table? (database.getD a.currentDatabase) name = none := by
  have htables := Plan.all_eq_of_transformUp_eq (Plan.advances_bindTable a.toContext)
    (apply_eq_of_pass_eq hrules hc hpass (r := .resolveTables) (by simp [Rule.standard])) _ hmem
  cases hfind : a.catalog.table? (database.getD a.currentDatabase) name with
  | none => rfl
  | some schema => simp [Plan.bindTable, hfind] at htables

/-- In an expression that a pass leaves unresolved over a resolved input there is an obstacle, or it
is a star where the operator is not a projection. -/
theorem exists_obstacle_of_pass_eq (hrules : a.rules = Rule.standard)
    (hc : a.catalog.OnlyAggregates) {q n c : Plan} (hpass : a.pass q = q) (hmem : n ∈ q.operators)
    (hchild : c ∈ n.children) {cs : List Column} (hschema : c.resolvedSchema? = some cs)
    {e : Expr} (he : e ∈ n.expressions) (hresolved : e.resolved = false) :
    (e = .star ∧ n.isProject = false) ∨ ∃ s ∈ e.subexprs, s.Obstacle a.toContext cs := by
  have hfixed {r : Rule} (hr : r ∈ Rule.standard) : r.apply a.toContext q = q :=
    apply_eq_of_pass_eq hrules hc hpass hr
  have hstars : n.expandStars = n := Plan.all_eq_of_transformUp_eq Plan.advances_expandStars
    (hfixed (r := .resolveStar) (by simp [Rule.standard])) n hmem
  have hcolumns : n.bindColumns = n := Plan.all_eq_of_transformUp_eq Plan.advances_bindColumns
    (hfixed (r := .resolveColumns) (by simp [Rule.standard])) n hmem
  rw [Plan.bindColumns, Plan.inputSchema?_of_mem_children hchild hschema] at hcolumns
  have hcolumn := Plan.all_eq_of_transformExpressions_eq (Expr.advances_bindColumn cs) hcolumns he
  have hcall := Plan.all_eq_of_transformExpressionsUp_eq (Expr.advances_bindCall hc)
    (hfixed (r := .resolveFunctions) (by simp [Rule.standard])) n hmem e he
  have hcast := Plan.all_eq_of_transformExpressionsUp_eq (Expr.advances_bindCast a.casts)
    (hfixed (r := .resolveCasts) (by simp [Rule.standard])) n hmem e he
  have hobstacle := Expr.exists_obstacle hc hresolved (hcolumn.imp fun _ h ↦ h.1)
    (hcall.imp fun _ h ↦ h.1) (hcast.imp fun _ h ↦ h.1)
  refine hobstacle.imp_left fun hstar ↦ ⟨hstar, ?_⟩
  exact Plan.isProject_eq_false_of_expandStars_eq hstars hchild hschema (hstar ▸ he)

/-- **An analysis fails for a reason.** Let the functions of the catalog be the aggregates. If an
analysis ends with something unbound, then the operator that it gives is a table that the catalog
does not have, in the database that is named or else in the current one; or its input is resolved,
and in its expressions there is an obstacle, or a star at the root where the operator is not a
projection. -/
theorem exists_obstacle_of_analyze (hrules : a.rules = Rule.standard)
    (hc : a.catalog.OnlyAggregates) {p n : Plan} (h : a.analyze p = .error (.unresolved n)) :
    (∃ database name, n = .unresolvedTable database name ∧
      a.catalog.table? (database.getD a.currentDatabase) name = none) ∨
    ∃ c cs, c ∈ n.children ∧ c.resolved = true ∧ c.schema = .ok cs ∧ ∃ e ∈ n.expressions,
      (e = .star ∧ n.isProject = false) ∨ ∃ s ∈ e.subexprs, s.Obstacle a.toContext cs := by
  obtain ⟨q, hsettle, hq, rfl⟩ := analyze_eq_unresolved_iff.1 h
  obtain ⟨-, hpass⟩ := iterate_of_settle hrules hc hsettle
  obtain ⟨hmem, hunresolved, hchildren⟩ := Plan.innermostUnresolved_spec hq
  generalize q.innermostUnresolved = n at hmem hunresolved hchildren ⊢
  rcases Plan.exists_not_resolved hunresolved hchildren with ⟨database, name, rfl⟩ | ⟨e, he, heres⟩
  · exact .inl ⟨database, name, rfl, table?_eq_none_of_pass_eq hrules hc hpass hmem⟩
  · obtain ⟨c, hchild⟩ := Plan.exists_mem_children_of_mem_expressions he
    have hresolved := hchildren c hchild
    obtain ⟨cs, hcs⟩ := Plan.exists_schema_of_named (Plan.named_of_resolved hresolved)
    have hschema := Plan.resolvedSchema?_eq_some_iff.2 ⟨hresolved, hcs⟩
    exact .inr ⟨c, cs, hchild, hresolved, hcs, e, he,
      exists_obstacle_of_pass_eq hrules hc hpass hmem hchild hschema he heres⟩

/-- A projection has two columns whose names differ in case only, and so a sort key by this name is
ambiguous. -/
theorem exists_obstacle_of_analyze_ambiguous :
    let events : Plan := .table "default" ⟨"events", [⟨"id", .integer, false, "events"⟩]⟩
    let both (id : Expr) : Plan := .project events [.renamed id "n", .renamed id "N"]
    let key : Expr := .column (some "") "n"
    let p : Plan := .sort (both (.column none "id")) [⟨key, true, false⟩]
    let n : Plan := .sort (both (.field ⟨0, "events", "id", .integer, false⟩)) [⟨key, true, false⟩]
    let a := Analyzer.ofCatalog .standard { maxIterations := 2 }
    (a.rules = Rule.standard ∧ a.catalog.OnlyAggregates ∧
      a.analyze p = .error (.unresolved n)) ∧
      ∃ c cs, c ∈ n.children ∧ c.schema = .ok cs ∧ ∃ s ∈ key.subexprs, s.Obstacle a.toContext cs := by
  intro events both key p n a
  have hp : a.pass p = n := rfl
  have hn : a.pass n = n := rfl
  have hanalyze : a.analyze p = .error (.unresolved n) :=
    analyze_eq_unresolved_iff.2 ⟨n, settle_eq_ok_of_pass_eq hp hn le_rfl, rfl, rfl⟩
  refine ⟨⟨rfl, Catalog.standard_onlyAggregates, hanalyze⟩, ?_⟩
  rcases exists_obstacle_of_analyze rfl Catalog.standard_onlyAggregates hanalyze with
    ⟨database, name, hn, -⟩ | ⟨c, cs, hc, -, hcs, e, he, hobstacle⟩
  · exact nomatch hn
  · obtain rfl := List.mem_singleton.1 he
    rcases hobstacle with ⟨hstar, -⟩ | hobstacle
    · exact nomatch hstar
    · exact ⟨c, cs, hc, hcs, hobstacle⟩

end Analyzer

end LogicalQuery
