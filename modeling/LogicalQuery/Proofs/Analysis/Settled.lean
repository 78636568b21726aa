import LogicalQuery.Proofs.Analysis.Convergence
import LogicalQuery.Proofs.Analysis.Refinement

/-!
# Settled plans

A plan is *settled* when everything in it is bound, comparisons compare operands of one type, and
casts are bound for the type of their child. Nothing in this mentions the catalog, the casts or the
settings of an analysis. An analysis has a settled result (`isSettled_of_analyze`), whatever the
functions of the catalog make of a call, since no call is left in the plan before the last pass.
Every analysis leaves a settled plan as it is, and so analyses do not undo each other
(`analyze_eq_ok_of_analyze_eq_ok`).
-/

namespace LogicalQuery

namespace Expr

/-! ### Subexpressions of resolved expressions -/

theorem resolved_or_isStar_of_mem_children {e c : Expr} (h : e.resolved = true)
    (hc : c ∈ e.children) : c.resolved = true ∨ c = star := by
  cases e with
  | literal _ _ | star | column _ _ | field _ => exact absurd hc List.not_mem_nil
  | call _ _ => cases h
  | renamed c' _ | not c' =>
    obtain rfl := List.mem_singleton.1 hc
    exact .inl h
  | cast c' _ _ =>
    obtain rfl := List.mem_singleton.1 hc
    rw [resolved, Bool.and_eq_true] at h
    exact .inl h.2
  | comparison _ l r =>
    rw [resolved, Bool.and_eq_true] at h
    rcases List.mem_cons.1 hc with rfl | hc
    · exact .inl h.1
    · exact .inl (List.mem_singleton.1 hc ▸ h.2)
  | aggregate g c' =>
    obtain rfl := List.mem_singleton.1 hc
    rw [resolved, Bool.or_eq_true, Bool.and_eq_true] at h
    rcases h with ⟨-, hstar⟩ | h
    · exact .inr (eq_star_of_isStar hstar)
    · exact .inl h

/-- Everything in a resolved expression is resolved, or a star below `count`. -/
theorem resolved_or_isStar_of_mem {e s : Expr} (h : e.resolved = true) (hs : s ∈ e.subexprs) :
    s.resolved = true ∨ s = star := by
  induction e using children_induction with
  | node e ih =>
    rcases mem_subexprs_iff.1 hs with rfl | ⟨c, hc, hs⟩
    · exact .inl h
    · rcases resolved_or_isStar_of_mem_children h hc with hc' | rfl
      · exact ih c hc hc' hs
      · exact .inr (by simpa [subexprs] using hs)

/-! ### Calls -/

/-- Whether the expression is a call. -/
def isCall : Expr → Bool
  | call _ _ => true
  | _ => false

/-- There are no calls in a named expression. -/
theorem all_isCall_eq_false_of_named {e : Expr} (h : e.named = true) :
    e.All fun s ↦ s.isCall = false := by
  refine named_induction (by simp [All, subexprs, isCall]) (fun e h ih ↦ all_iff.2 ⟨?_, ih⟩) h
  cases e with
  | call _ _ => cases h
  | _ => rfl

theorem transformUp_bindCall_congr (catalog catalog' : Catalog) {e : Expr} (h : e.named = true) :
    e.transformUp (bindCall catalog) = e.transformUp (bindCall catalog') := by
  refine transformUp_congr (P := fun s ↦ s.isCall = false) ?_ ?_ (all_isCall_eq_false_of_named h)
  · intro s g hs
    cases s with
    | call _ _ => exact nomatch hs
    | _ => rfl
  · intro s hs
    cases s with
    | call _ _ => exact nomatch hs
    | _ => rfl

/-! ### Settled nodes -/

/-- At its root, the expression compares operands of one type, and its cast is bound for the type of
its child, if it is bound. -/
def IsSettled : Expr → Prop
  | comparison _ l r => l.dataType? = r.dataType?
  | cast e _ (some c) => e.fits c = true
  | _ => True

theorem IsSettled.bindingFits {e : Expr} (h : e.IsSettled) : e.BindingFits := by
  cases e with
  | cast _ _ b =>
    cases b with
    | none => trivial
    | some _ => exact h
  | _ => trivial

theorem IsSettled.coerceOperands_eq {e : Expr} (h : e.IsSettled) : e.coerceOperands = e := by
  rcases coerceOperands_cases e with heq | ⟨op, l, r, s, t, rfl, hs, ht, hst, -⟩
  · exact heq
  · have htypes : l.dataType? = r.dataType? := h
    rw [hs, ht] at htypes
    exact absurd (Option.some.inj htypes) hst

/-- A comparison of resolved operands that needs no coercion compares operands of one type. -/
theorem dataType?_eq_of_coerceOperands_eq {op : ComparisonOp} {l r : Expr}
    (hl : l.resolved = true) (hr : r.resolved = true)
    (h : (comparison op l r).coerceOperands = comparison op l r) :
    l.dataType? = r.dataType? := by
  obtain ⟨s, hs⟩ := exists_dataType?_of_named (named_of_resolved hl)
  obtain ⟨t, ht⟩ := exists_dataType?_of_named (named_of_resolved hr)
  rw [hs, ht]
  by_contra hne
  -- Otherwise one of the operands would be a cast of itself.
  have hst : s ≠ t := fun heq ↦ hne (congrArg some heq)
  simp only [coerceOperands, hl, hr, Bool.and_self, if_true, hs, ht, if_neg hst,
    comparison.injEq, true_and] at h
  have hself (e : Expr) (u : DataType) : cast e u none ≠ e := by
    intro heq
    have := congrArg sizeOf heq
    rw [cast.sizeOf_spec] at this
    omega
  rcases DataType.common_eq_or s t with hcommon | hcommon
  · rw [hcommon, coerce, coerce, if_neg hst.symm] at h
    exact hself r s h.2
  · rw [hcommon, coerce, if_neg hst] at h
    exact hself l t h.1

/-- A node of a resolved expression is settled, if rebuilding and coercing it change nothing. -/
theorem isSettled_of_eq {g : Expr → Expr} {s : Expr} (hs : s.resolved = true ∨ s = star)
    (hcoerce : s.coerceOperands = s) (hmap : s.mapChildren g = s) : s.IsSettled := by
  cases s with
  | comparison op l r =>
    rcases hs with hs | hs
    · rw [resolved, Bool.and_eq_true] at hs
      exact dataType?_eq_of_coerceOperands_eq hs.1 hs.2 hcoerce
    · cases hs
  | cast c t b =>
    cases b with
    | none => trivial
    | some b => exact (mapChildren_eq_self_iff.1 hmap).1
  | _ => trivial

/-- A transformation leaves a settled resolved expression as it is, if its function leaves the star
and every settled resolved expression as it is. -/
theorem transformUp_eq_self_of_isSettled {f : Expr → Expr} {e : Expr} (he : e.resolved = true)
    (h : e.All IsSettled)
    (hf : ∀ s : Expr, s.resolved = true ∨ s = star → s.IsSettled → f s = s) :
    e.transformUp f = e :=
  transformUp_eq_self fun s hs ↦
    ⟨(h s hs).bindingFits, hf s (resolved_or_isStar_of_mem he hs) (h s hs)⟩

end Expr

/-! ### Settled plans -/

namespace Plan

/-- In a plan whose names are bound, there is nothing for a catalog to bind. -/
theorem transformExpressionsUp_bindCall_congr (catalog catalog' : Catalog) {p : Plan}
    (h : p.named = true) : p.transformExpressionsUp (Expr.bindCall catalog) =
      p.transformExpressionsUp (Expr.bindCall catalog') := by
  refine transformExpressionsUp_congr fun n hn e he ↦ ?_
  exact Expr.transformUp_bindCall_congr _ _ (named_of_mem_expressions h hn he)

/-- In a resolved plan there are no stars to expand. -/
theorem transformUp_expandStars_eq {p : Plan} (h : p.resolved = true) :
    p.transformUp expandStars = p := by
  refine transformUp_eq_self fun n hn ↦ ?_
  rcases expandStars_cases n with heq | ⟨input, es, columns, rfl, -, heq⟩
  · exact heq
  · have hstar (e : Expr) (he : e ∈ es) : e.isStar = false :=
      Expr.isStar_eq_false_of_named (named_of_mem_expressions (named_of_resolved h) hn he)
    rw [heq, Expr.expandStars_eq_self hstar]

/-- Everything in the plan is bound, comparisons compare operands of one type, and casts are bound
for the type of their child. -/
structure IsSettled (p : Plan) : Prop where
  resolved : p.resolved = true
  exprs : p.All fun n ↦ ∀ e ∈ n.expressions, e.All Expr.IsSettled

namespace IsSettled

variable {p : Plan}

theorem resolved_of_mem (h : p.IsSettled) {n : Plan} (hn : n ∈ p.operators) {e : Expr}
    (he : e ∈ n.expressions) : e.resolved = true :=
  (resolved_iff.1 (all_resolved h.resolved n hn)).2.1 e he

/-- A transformation of expressions leaves a settled plan as it is, if its function leaves the star
and every settled resolved expression as it is. -/
theorem transformExpressionsUp_eq (h : p.IsSettled) {f : Expr → Expr}
    (hf : ∀ s : Expr, s.resolved = true ∨ s = .star → s.IsSettled → f s = s) :
    p.transformExpressionsUp f = p :=
  transformExpressionsUp_eq_self fun n hn e he ↦
    Expr.transformUp_eq_self_of_isSettled (h.resolved_of_mem hn he) (h.exprs n hn e he) hf

theorem bindTable_eq (h : p.IsSettled) (ctx : Context) : p.transformUp (bindTable ctx) = p := by
  refine transformUp_eq_self fun n hn ↦ ?_
  rcases bindTable_cases ctx n with heq | ⟨database, name, schema, rfl, -, -⟩
  · exact heq
  · exact absurd (all_resolved h.resolved _ hn) Bool.false_ne_true

theorem bindColumns_eq (h : p.IsSettled) : p.transformUp bindColumns = p := by
  refine transformUp_eq_self fun n hn ↦ ?_
  rcases bindColumns_cases n with heq | ⟨columns, -, heq⟩
  · exact heq
  · rw [heq]
    refine mapExpressions_eq_self ((List.map_congr_left fun e he ↦ ?_).trans (List.map_id _))
    refine Expr.transformUp_eq_self_of_isSettled (h.resolved_of_mem hn he) (h.exprs n hn e he) ?_
    rintro s hs -
    rcases Expr.bindColumn_cases columns s with heq | ⟨table, name, c, index, rfl, -, -, -⟩
    · exact heq
    · exact absurd hs (by simp [Expr.resolved])

theorem bindCall_eq (h : p.IsSettled) (catalog : Catalog) :
    p.transformExpressionsUp (Expr.bindCall catalog) = p := by
  refine h.transformExpressionsUp_eq ?_
  rintro s hs -
  cases s with
  | call _ _ => exact absurd hs (by simp [Expr.resolved])
  | _ => rfl

theorem coerceOperands_eq (h : p.IsSettled) : p.transformExpressionsUp Expr.coerceOperands = p :=
  h.transformExpressionsUp_eq fun _ _ hs ↦ hs.coerceOperands_eq

theorem bindCast_eq (h : p.IsSettled) (casts : CastRegistry) :
    p.transformExpressionsUp (Expr.bindCast casts) = p := by
  refine h.transformExpressionsUp_eq ?_
  rintro s hs -
  rcases Expr.bindCast_cases casts s with heq | ⟨child, source, target, function, rfl, -, -, -⟩
  · exact heq
  · exact absurd hs (by simp [Expr.resolved])

end IsSettled

end Plan

/-- **No standard rule changes a settled plan**, in no context. -/
theorem Rule.apply_eq_of_isSettled {r : Rule} (hr : r ∈ Rule.standard) (ctx : Context) {p : Plan}
    (h : p.IsSettled) : r.apply ctx p = p := by
  rcases mem_standard_iff.1 hr with rfl | rfl | rfl | rfl | rfl | rfl
  · exact h.bindTable_eq ctx
  · exact Plan.transformUp_expandStars_eq h.resolved
  · exact h.bindColumns_eq
  · exact h.bindCall_eq ctx.catalog
  · exact h.coerceOperands_eq
  · exact h.bindCast_eq ctx.casts

namespace Analyzer

variable {a : Analyzer}

theorem pass_eq_of_isSettled (hrules : a.rules = Rule.standard) {p : Plan} (h : p.IsSettled) :
    a.pass p = p := by
  refine pass_induction (P := (· = p)) hrules ?_ rfl
  rintro r hr _ rfl
  exact Rule.apply_eq_of_isSettled hr a.toContext h

/-- A settled plan is its own analysis. -/
theorem analyze_eq_of_isSettled (hrules : a.rules = Rule.standard) {p : Plan} (h : p.IsSettled) :
    a.analyze p = .ok p := by
  have hpass := pass_eq_of_isSettled hrules h
  refine analyze_eq_ok_iff.2 ⟨settle_eq_ok_iff.2 ⟨0, Nat.zero_le _, hpass.symm, ?_, ?_⟩, h.resolved⟩
  · exact beq_self_eq_true p
  · exact fun j hj ↦ absurd hj (Nat.not_lt_zero j)

/-- A resolved plan that one pass reaches and the next pass leaves as it is is an analysis. -/
theorem analyze_eq_ok_of_pass_eq {p q : Plan} (hp : a.pass p = q) (hq : a.pass q = q)
    (hresolved : q.resolved = true) (hlimit : 2 ≤ a.settings.maxIterations) :
    a.analyze p = .ok q :=
  analyze_eq_ok_iff.2 ⟨settle_eq_ok_of_pass_eq hp hq (Nat.le_sub_one_of_lt hlimit), hresolved⟩

/-! ### Analyzers without functions -/

/-- The analyzer over the same tables, without functions. -/
def withoutFunctions (a : Analyzer) : Analyzer :=
  { a with catalog := { a.catalog with functions := .empty } }

theorem withoutFunctions_onlyAggregates (a : Analyzer) :
    a.withoutFunctions.catalog.OnlyAggregates :=
  fun _ _ h ↦ nomatch h

/-- The plan after the rules that bind the names of tables and columns. -/
def bindNames (ctx : Context) (p : Plan) : Plan :=
  ((p.transformUp (Plan.bindTable ctx)).transformUp Plan.expandStars).transformUp Plan.bindColumns

theorem named_bindNames (ctx : Context) {p : Plan} (hp : p.named = true) :
    (bindNames ctx p).named = true := by
  have htables := (Plan.refines_transformUp (Plan.refines_bindTable ctx) p hp).1
  have hstars := (Plan.refines_transformUp Plan.refines_expandStars _ htables).1
  exact (Plan.refines_transformUp Plan.refines_bindColumns _ hstars).1

theorem pass_eq (hrules : a.rules = Rule.standard) (p : Plan) :
    a.pass p = (((bindNames a.toContext p).transformExpressionsUp
      (Expr.bindCall a.catalog)).transformExpressionsUp
        Expr.coerceOperands).transformExpressionsUp (Expr.bindCast a.casts) := by
  unfold pass
  rw [hrules]
  rfl

/-- Functions play no part in a pass over a plan whose names are bound. -/
theorem pass_withoutFunctions (hrules : a.rules = Rule.standard) {p : Plan}
    (hp : p.named = true) : a.withoutFunctions.pass p = a.pass p := by
  have hrules' : a.withoutFunctions.rules = Rule.standard := hrules
  have hnames : bindNames a.withoutFunctions.toContext p = bindNames a.toContext p := rfl
  have hcasts : a.withoutFunctions.casts = a.casts := rfl
  rw [pass_eq hrules', pass_eq hrules, hnames, hcasts,
    Plan.transformExpressionsUp_bindCall_congr _ a.catalog (named_bindNames a.toContext hp)]

/-! ### Results of analyses -/

/-- A resolved plan that a pass leaves equal is settled, and the pass has not even changed the
functions of its casts. -/
theorem isSettled_of_pass_beq (hrules : a.rules = Rule.standard) {p : Plan}
    (hp : p.resolved = true) (hbeq : (a.pass p == p) = true) : a.pass p = p ∧ p.IsSettled := by
  have hrules' : a.withoutFunctions.rules = Rule.standard := hrules
  have hc := a.withoutFunctions_onlyAggregates
  have hsame := pass_withoutFunctions hrules (Plan.named_of_resolved hp)
  -- Without functions every pass advances, and a plan does not advance to an equal one.
  have hpass : a.withoutFunctions.pass p = p :=
    (advances_pass hrules' hc p).eq_of_beq (hsame ▸ hbeq)
  refine ⟨hsame ▸ hpass, hp, fun n hn e he s hs ↦ ?_⟩
  have hcomparisons := Plan.all_eq_of_transformExpressionsUp_eq Expr.advances_coerceOperands
    (apply_eq_of_pass_eq hrules' hc hpass (Rule.mem_standard_iff.2 (by simp)) :
      Rule.coerceComparisons.apply a.withoutFunctions.toContext p = p)
  obtain ⟨hcoerce, hmap⟩ := hcomparisons n hn e he s hs
  have hresolved := (Plan.resolved_iff.1 (Plan.all_resolved hp n hn)).2.1 e he
  exact Expr.isSettled_of_eq (Expr.resolved_or_isStar_of_mem hresolved hs) hcoerce hmap

/-- **Results of analyses are settled.** -/
theorem isSettled_of_analyze (hrules : a.rules = Rule.standard) {p q : Plan}
    (h : a.analyze p = .ok q) : q.IsSettled := by
  obtain ⟨hsettle, hresolved⟩ := analyze_eq_ok_iff.1 h
  obtain ⟨k, -, hq, hbeq, -⟩ := settle_eq_ok_iff.1 hsettle
  have hlast : q = a.pass (a.pass^[k] p) := by rw [hq, Function.iterate_succ_apply']
  rw [hlast] at hbeq hresolved
  obtain ⟨hsame, hsettled⟩ :=
    isSettled_of_pass_beq hrules ((Plan.resolved_eq_of_beq hbeq).symm.trans hresolved) hbeq
  rwa [hlast, hsame]

/-- **Analyses do not undo each other.** The result of an analysis is its own analysis, over any
catalog and casts, for any current database and with any limit on the number of passes. -/
theorem analyze_eq_ok_of_analyze_eq_ok {a b : Analyzer} (ha : a.rules = Rule.standard)
    (hb : b.rules = Rule.standard) {p q : Plan} (h : a.analyze p = .ok q) :
    b.analyze q = .ok q :=
  analyze_eq_of_isSettled hb (isSettled_of_analyze ha h)

/-- A filter on the equality of an integer with the result of a function that is a big integer for
all arguments. Its analysis is the analysis of an analyzer that knows neither tables nor functions
nor casts, and is allowed no pass. -/
theorem analyze_eq_ok_of_analyze_eq_ok_seven :
    let events : Plan := .table "default" ⟨"events", [⟨"id", .integer, false, "events"⟩]⟩
    let seven : Expr := .literal (.bigInteger 7) .bigInteger
    let widen : BoundCast := ⟨.integer, .bigInteger,
      (Cast.ofInteger .bigInteger fun n ↦ .ok (.bigInteger n.toInt64)).function⟩
    let id : Expr := .cast (.field ⟨0, "events", "id", .integer, false⟩) .bigInteger (some widen)
    let a := Analyzer.ofCatalog ⟨.empty, ⟨[("seven", fun _ ↦ .ok seven)]⟩⟩ { maxIterations := 2 }
    let b : Analyzer := ⟨⟨.empty, .empty, "archive", { maxIterations := 0 }⟩, Rule.standard⟩
    let p : Plan := .filter events (.comparison .eq (.column none "ID") (.call "Seven" [.star]))
    let q : Plan := .filter events (.comparison .eq id seven)
    a.rules = Rule.standard ∧ b.rules = Rule.standard ∧ a.analyze p = .ok q ∧
      b.analyze q = .ok q := by
  intro events seven widen id a b p q
  have hp : a.pass p = q := rfl
  have hq : a.pass q = q := rfl
  have hanalyze : a.analyze p = .ok q := analyze_eq_ok_of_pass_eq hp hq rfl le_rfl
  exact ⟨rfl, rfl, hanalyze, analyze_eq_ok_of_analyze_eq_ok rfl rfl hanalyze⟩

end Analyzer

end LogicalQuery
