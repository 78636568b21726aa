import LogicalQuery.Proofs.Analysis.BoundForm
import LogicalQuery.Proofs.Catalog.Growth
import Mathlib.Data.List.Induction

/-!
# Analyses over growing catalogs

An analysis that succeeds gives the same result after any further definitions in the catalog
(`analyze_defineAll`). Every plan on the way to the result binds to it, so the catalog knows all
tables and functions that the plan names (`BindsTo.isKnown`). Where all names are known, what a
catalog knows beside them is never asked for, and the passes over both catalogs go in step.
-/

namespace LogicalQuery

/-! ### Known names -/

/-- The expression is not a call of a function that the catalog does not know. -/
def Expr.IsKnown (catalog : Catalog) : Expr → Prop
  | call name _ => ∃ f, catalog.function? name = some f
  | _ => True

/-- The operator is not the name of a table that the catalog does not know, and its expressions call
known functions. -/
def Plan.IsKnown (ctx : Context) (p : Plan) : Prop :=
  (∀ database name, p = .unresolvedTable database name →
    ∃ schema, ctx.catalog.table? (database.getD ctx.currentDatabase) name = some schema) ∧
  ∀ e ∈ p.expressions, e.All (Expr.IsKnown ctx.catalog)

variable {ctx : Context} {catalog catalog' : Catalog}

namespace Expr

variable {c : Plan}

/-- An expression that has a bound form calls known functions. -/
theorem BindsTo.isKnown {e e' : Expr} (h : e.BindsTo ctx c e') : e.All (IsKnown ctx.catalog) := by
  induction h with
  | literal _ _ | star | field _ | column _ _ => exact all_iff.2 ⟨trivial, nofun⟩
  | renamed _ ih | not _ ih | cast _ _ _ ih | aggregate _ ih =>
    exact all_iff.2 ⟨trivial, List.forall_mem_singleton.2 ih⟩
  | comparison _ _ _ _ _ _ ihl ihr =>
    exact all_iff.2 ⟨trivial, List.forall_mem_cons.2 ⟨ihl, List.forall_mem_singleton.2 ihr⟩⟩
  | call hg _ ih => exact all_iff.2 ⟨⟨_, hg⟩, List.forall_mem_singleton.2 ih⟩

theorem ExpandsTo.isKnown {es es' : List Expr} (h : ExpandsTo ctx c es es') :
    ∀ e ∈ es, e.All (IsKnown ctx.catalog) := by
  induction h with
  | nil => exact nofun
  | star _ _ _ _ ih => exact List.forall_mem_cons.2 ⟨all_iff.2 ⟨trivial, nofun⟩, ih⟩
  | cons _ he _ ih => exact List.forall_mem_cons.2 ⟨he.isKnown, ih⟩

theorem isKnown_of_forall₂ {es es' : List Expr} (h : List.Forall₂ (BindsTo ctx c) es es') :
    ∀ e ∈ es, e.All (IsKnown ctx.catalog) := by
  induction h with
  | nil => exact nofun
  | cons he _ ih => exact List.forall_mem_cons.2 ⟨he.isKnown, ih⟩

/-- A catalog that knows a function binds calls of it like every extension of the catalog. -/
theorem bindCall_eq_of_extends (h : catalog.Extends catalog') {e : Expr} (he : e.IsKnown catalog) :
    e.bindCall catalog' = e.bindCall catalog := by
  cases e with
  | call name args =>
    obtain ⟨f, hf⟩ := he
    rw [bindCall, bindCall, hf, h.function hf]
  | _ => rfl

theorem transformUp_bindCall_eq_of_extends (h : catalog.Extends catalog') {e : Expr}
    (he : e.All (IsKnown catalog)) :
    e.transformUp (bindCall catalog') = e.transformUp (bindCall catalog) := by
  refine transformUp_congr (fun e g hknown ↦ ?_) (fun e ↦ bindCall_eq_of_extends h) he
  cases e with
  | call _ _ => exact hknown
  | _ => trivial

end Expr

namespace Plan

/-- A plan that has a bound form names known tables and functions. -/
theorem BindsTo.isKnown {p q : Plan} (h : p.BindsTo ctx q) : p.All (IsKnown ctx) := by
  induction h with
  | @unresolvedTable _ _ schema h =>
    refine all_iff.2 ⟨⟨fun database name heq ↦ ?_, nofun⟩, nofun⟩
    cases heq
    exact ⟨schema, h⟩
  | table _ _ => exact all_iff.2 ⟨⟨nofun, nofun⟩, nofun⟩
  | project _ hes ih =>
    exact all_iff.2 ⟨⟨nofun, hes.isKnown⟩, List.forall_mem_singleton.2 ih⟩
  | filter _ he ih =>
    exact all_iff.2 ⟨⟨nofun, List.forall_mem_singleton.2 he.isKnown⟩,
      List.forall_mem_singleton.2 ih⟩
  | groupBy _ has hgs ih =>
    exact all_iff.2 ⟨⟨nofun, List.forall_mem_append.2
      ⟨Expr.isKnown_of_forall₂ has, Expr.isKnown_of_forall₂ hgs⟩⟩, List.forall_mem_singleton.2 ih⟩
  | sort _ hks ih =>
    refine all_iff.2 ⟨⟨nofun, ?_⟩, List.forall_mem_singleton.2 ih⟩
    exact Expr.isKnown_of_forall₂ <| List.forall₂_map_left_iff.2 <| List.forall₂_map_right_iff.2 <|
      hks.imp fun _ _ hk ↦ hk.expr
  | limit _ _ ih | offset _ _ ih =>
    exact all_iff.2 ⟨⟨nofun, nofun⟩, List.forall_mem_singleton.2 ih⟩

theorem bindTable_eq_of_extends (h : ctx.catalog.Extends catalog) {p : Plan} (hp : p.IsKnown ctx) :
    p.bindTable { ctx with catalog } = p.bindTable ctx := by
  cases p with
  | unresolvedTable database name =>
    obtain ⟨schema, hschema⟩ := hp.1 database name rfl
    rw [bindTable, bindTable]
    dsimp only
    rw [hschema, h.table hschema]
  | _ => rfl

theorem isKnown_mapChildren (p : Plan) (g : Plan → Plan) (h : p.IsKnown ctx) :
    (p.mapChildren g).IsKnown ctx := by
  refine ⟨fun database name heq ↦ ?_, ?_⟩
  · cases p with
    | unresolvedTable _ _ => exact h.1 database name heq
    | _ => exact nomatch heq
  · rw [expressions_mapChildren]
    exact h.2

end Plan

/-- **Where all names are known, more definitions make no difference to a rule.** -/
theorem Rule.apply_eq_of_extends (h : ctx.catalog.Extends catalog) {r : Rule}
    (hr : r ∈ Rule.standard) {p : Plan} (hp : p.All (Plan.IsKnown ctx)) :
    r.apply { ctx with catalog } p = r.apply ctx p := by
  rcases mem_standard_iff.1 hr with rfl | rfl | rfl | rfl | rfl | rfl
  · exact Plan.transformUp_congr Plan.isKnown_mapChildren
      (fun _ ↦ Plan.bindTable_eq_of_extends h) hp
  · rfl
  · rfl
  · exact Plan.transformExpressionsUp_congr fun n hn e he ↦
      Expr.transformUp_bindCall_eq_of_extends h ((hp n hn).2 e he)
  · rfl
  · rfl

/-- Rules towards a bound form go the same way over every extension of the catalog. -/
theorem Rule.foldl_apply_eq_of_extends (hc : ctx.catalog.OnlyAggregates)
    (h : ctx.catalog.Extends catalog) {rs : List Rule} (hrs : ∀ r ∈ rs, r ∈ Rule.standard)
    {p q : Plan} (hq : (rs.foldl (fun p r ↦ r.apply ctx p) p).BindsTo ctx q) :
    rs.foldl (fun p r ↦ r.apply { ctx with catalog } p) p =
      rs.foldl (fun p r ↦ r.apply ctx p) p := by
  induction rs using List.reverseRecOn with
  | nil => rfl
  | append_singleton rs r ih =>
    obtain ⟨hrs, hr⟩ := List.forall_mem_append.1 hrs
    have hr := hr r (List.mem_singleton_self r)
    simp only [List.foldl_append, List.foldl_cons, List.foldl_nil] at hq ⊢
    -- The last rule has only added bindings, so what it was applied to binds to the same plan.
    have hq' := Rule.stepsTo_of_mem_standard hc hr _ q hq
    rw [ih hrs hq', Rule.apply_eq_of_extends h hr hq'.isKnown]

namespace Analyzer

variable {a : Analyzer} {p q : Plan}

/-- Passes towards a bound form go the same way over every extension of the catalog. -/
theorem iterate_eq_of_extends (hrules : a.rules = Rule.standard) (hc : a.catalog.OnlyAggregates)
    (h : a.catalog.Extends catalog) {k : Nat} (hq : (a.pass^[k] p).BindsTo a.toContext q) :
    { a with catalog }.pass^[k] p = a.pass^[k] p := by
  induction k with
  | zero => rfl
  | succ k ih =>
    rw [Function.iterate_succ_apply'] at hq
    have hstep := stepsTo_iterate hrules hc (a.pass^[k] p) 1 q hq
    rw [Function.iterate_succ_apply', Function.iterate_succ_apply', ih hstep]
    exact Rule.foldl_apply_eq_of_extends hc h (fun _ hr ↦ hrules ▸ hr) hq

/-- An analysis that succeeds gives the same result over every extension of the catalog. -/
theorem analyze_eq_ok_of_extends (hrules : a.rules = Rule.standard)
    (hc : a.catalog.OnlyAggregates) (h : a.catalog.Extends catalog) (hq : a.analyze p = .ok q) :
    { a with catalog }.analyze p = .ok q := by
  have hbinds : q.BindsTo a.toContext q := (isSettled_of_analyze hrules hq).bindsTo
  obtain ⟨hsettle, hresolved⟩ := analyze_eq_ok_iff.1 hq
  obtain ⟨k, hk, hlast, hbeq, hfirst⟩ := settle_eq_ok_iff.1 hsettle
  have hagree (j : Nat) (hj : j ≤ k + 1) : { a with catalog }.pass^[j] p = a.pass^[j] p := by
    refine iterate_eq_of_extends hrules hc h (stepsTo_iterate hrules hc _ (k + 1 - j) q ?_)
    rwa [← Function.iterate_add_apply, Nat.sub_add_cancel hj, ← hlast]
  refine analyze_eq_ok_iff.2 ⟨settle_eq_ok_iff.2 ⟨k, hk, ?_, ?_, fun j hj ↦ ?_⟩, hresolved⟩
  · rw [hagree (k + 1) le_rfl, hlast]
  · rw [hagree k (Nat.le_succ k), hbeq]
  · rw [hagree (j + 1) (by omega), hagree j (by omega), hfirst j hj]

/-- **Growing the catalog never changes a result.** If the functions of the catalog are the
aggregates and a plan has an analysis, then it has the same analysis after any sequence of
definitions of databases, tables and functions, those that fail included. -/
theorem analyze_defineAll (hrules : a.rules = Rule.standard) (hc : a.catalog.OnlyAggregates)
    (ds : List Catalog.Definition) (h : a.analyze p = .ok q) :
    { a with catalog := a.catalog.defineAll ds }.analyze p = .ok q :=
  analyze_eq_ok_of_extends hrules hc (a.catalog.extends_defineAll ds) h

/-- A function under a new name, a table of the same name in a new database, and definitions that
fail because the names are taken, do not change the analysis of the events of number seven. -/
theorem analyze_defineAll_namedSevens :
    let ds : List Catalog.Definition := [.function "sum" fun _ ↦ .ok .star,
      .function "COUNT" fun _ ↦ .ok .star, .database "default", .table "default" loggedEvents,
      .table "Log" ⟨"EVENTS", []⟩]
    (logAnalyzer.rules = Rule.standard ∧ logAnalyzer.catalog.OnlyAggregates ∧
      logAnalyzer.analyze namedSevens = .ok boundSevens) ∧
      { logAnalyzer with catalog := logAnalyzer.catalog.defineAll ds }.analyze namedSevens =
        .ok boundSevens := by
  intro ds
  have hc : logAnalyzer.catalog.OnlyAggregates := Catalog.standard_onlyAggregates.of_functions_eq rfl
  exact ⟨⟨rfl, hc, analyze_namedSevens⟩, analyze_defineAll rfl hc ds analyze_namedSevens⟩

end Analyzer

end LogicalQuery
