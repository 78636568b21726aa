import LogicalQuery.Proofs.Analysis.Invariant
import LogicalQuery.Proofs.Plan.BoundForm

/-!
# The result of an analysis is a bound form

An analysis only elaborates: its result is a bound form of the plan, with the same operators,
expressions, lists and flags, where each name stands for what the catalog and the input make of it
(`bindsTo_of_analyze`).

The proof goes backwards. The result is its own bound form, and a step of the analysis does not add
bound forms: what the plan after the step binds to, the plan before it binds to as well (`StepsTo`).
So the half bound plans between the passes need no description of their own.
-/

namespace LogicalQuery

/-! ### Steps of expressions -/

namespace Expr

variable {ctx : Context} {c : Plan}

/-- Every bound form of the second expression over the input is one of the first expression, and both
are stars or none is. -/
structure StepsTo (ctx : Context) (c : Plan) (e e₁ : Expr) : Prop where
  isStar : e₁.isStar = e.isStar
  bindsTo {e' : Expr} : e₁.BindsTo ctx c e' → e.BindsTo ctx c e'

namespace StepsTo

theorem refl (e : Expr) : e.StepsTo ctx c e := ⟨rfl, id⟩

theorem trans {e e₁ e₂ : Expr} (h : e.StepsTo ctx c e₁) (h' : e₁.StepsTo ctx c e₂) :
    e.StepsTo ctx c e₂ :=
  ⟨h'.isStar.trans h.isStar, h.bindsTo ∘ h'.bindsTo⟩

/-- Steps in the places of a list are steps of the list, in which stars stand for columns. -/
theorem expandsTo_map {g : Expr → Expr} (hg : ∀ e : Expr, e.StepsTo ctx c (g e)) {es es' : List Expr}
    (h : ExpandsTo ctx c (es.map g) es') : ExpandsTo ctx c es es' := by
  induction es generalizing es' with
  | nil => exact h
  | cons e es ih =>
    have hstar := (hg e).isStar
    have hbinds {e' : Expr} : (g e).BindsTo ctx c e' → e.BindsTo ctx c e' := (hg e).bindsTo
    rw [List.map_cons] at h
    generalize g e = e₁ at h hstar hbinds
    cases h with
    | star hcs hindex hfs h =>
      obtain rfl := eq_star_of_isStar hstar.symm
      exact .star hcs hindex hfs (ih h)
    | cons hfalse he h => exact .cons (hstar.symm.trans hfalse) (hbinds he) (ih h)

theorem forall₂_map {g : Expr → Expr} (hg : ∀ e : Expr, e.StepsTo ctx c (g e)) {es es' : List Expr}
    (h : List.Forall₂ (BindsTo ctx c) (es.map g) es') : List.Forall₂ (BindsTo ctx c) es es' :=
  (List.forall₂_map_left_iff.1 h).imp fun e _ ↦ (hg e).bindsTo

end StepsTo

/-- A node over stepping children steps. -/
theorem stepsTo_mapChildren {e : Expr} {g : Expr → Expr}
    (h : ∀ x ∈ e.children, x.StepsTo ctx c (g x)) : e.StepsTo ctx c (e.mapChildren g) := by
  refine ⟨by cases e <;> rfl, fun {e'} hbinds ↦ ?_⟩
  cases e with
  | literal _ _ | star | column _ _ | field _ => exact hbinds
  | renamed x _ =>
    cases hbinds with
    | renamed hx => exact .renamed ((h x List.mem_cons_self).bindsTo hx)
  | not x =>
    cases hbinds with
    | not hx => exact .not ((h x List.mem_cons_self).bindsTo hx)
  | comparison _ l r =>
    cases hbinds with
    | comparison hl hr hs ht hl' hr' =>
      exact .comparison ((h l (by simp [children])).bindsTo hl)
        ((h r (by simp [children])).bindsTo hr) hs ht hl' hr'
  | cast x t b =>
    cases hbinds with
    | cast hx hsource hb =>
      refine .cast ((h x List.mem_cons_self).bindsTo hx) hsource (hb.imp_left fun hb ↦ ?_)
      exact (Option.filter_eq_some_iff.1 hb).1
  | call n es =>
    rw [mapChildren] at hbinds
    generalize hes : es.map g = es₁ at hbinds
    cases hbinds with
    | call hf hx =>
      obtain ⟨x, rfl, rfl⟩ := List.map_eq_singleton_iff.1 hes
      exact .call hf ((h x List.mem_cons_self).bindsTo hx)
  | aggregate _ x =>
    cases hbinds with
    | aggregate hx => exact .aggregate ((h x List.mem_cons_self).bindsTo hx)

/-- A transformation steps, if its function does. -/
theorem stepsTo_transformUp {f : Expr → Expr} (hf : ∀ e : Expr, e.StepsTo ctx c (f e)) (e : Expr) :
    e.StepsTo ctx c (e.transformUp f) :=
  transformUp_rel (R := StepsTo ctx c) .trans stepsTo_mapChildren hf e

theorem stepsTo_bindColumn {cs : List Column}
    (hcs : ∀ (d : Column) (i : Nat), cs[i]? = some d → (d.toField i).IsOver c) (e : Expr) :
    e.StepsTo ctx c (e.bindColumn cs) := by
  rcases bindColumn_cases cs e with heq | ⟨table, name, column, i, rfl, hmem, hname, heq⟩
  · exact heq.symm ▸ .refl e
  · rw [heq]
    refine ⟨rfl, fun hbinds ↦ ?_⟩
    cases hbinds with
    | field _ =>
      exact .column (hcs column i (List.mem_zipIdx_iff_getElem?.1 hmem))
        (Column.isNamed_toField hname i)

theorem stepsTo_bindCall (hc : ctx.catalog.OnlyAggregates) (e : Expr) :
    e.StepsTo ctx c (e.bindCall ctx.catalog) := by
  rcases bindCall_cases hc e with heq | ⟨name, x, g, rfl, hg, heq⟩
  · exact heq.symm ▸ .refl e
  · rw [heq]
    refine ⟨rfl, fun hbinds ↦ ?_⟩
    cases hbinds with
    | aggregate hx => exact .call hg hx

/-- Operands of one type stay. -/
theorem Meets.eq_self {casts : CastRegistry} {e e' : Expr} {t : DataType}
    (h : e.Meets casts t t e') : e' = e := by
  cases h with
  | same _ => rfl
  | cast hne _ => exact absurd rfl hne

/-- What an unbound cast binds to is what its child becomes where operands meet. -/
theorem exists_meets_of_cast {x y : Expr} {s t : DataType}
    (h : (cast x t none).BindsTo ctx c y) (hs : x.dataType? = some s) (hst : s ≠ t) :
    ∃ x', x.BindsTo ctx c x' ∧ x'.dataType? = some s ∧ x'.Meets ctx.casts s t y := by
  cases h with
  | @cast _ x' _ _ b' hx hsource hb =>
    have hs' := hx.keepsType s hs
    obtain rfl := Option.some.inj (hsource.symm.trans hs')
    exact ⟨x', hx, hs', .cast hst (hb.resolve_left nofun)⟩

/-- A comparison of operands of one type binds to a comparison of their bound forms. -/
theorem exists_of_comparison_self {op : ComparisonOp} {l r e' : Expr} {t : DataType}
    (h : (comparison op l r).BindsTo ctx c e') (hl : l.dataType? = some t)
    (hr : r.dataType? = some t) :
    ∃ l' r', l.BindsTo ctx c l' ∧ r.BindsTo ctx c r' ∧ e' = comparison op l' r' := by
  cases h with
  | @comparison _ _ l₀ _ _ r₀ _ s s' hl₀ hr₀ hs hs' hl' hr' =>
    obtain rfl := Option.some.inj ((hl₀.keepsType t hl).symm.trans hs)
    obtain rfl := Option.some.inj ((hr₀.keepsType t hr).symm.trans hs')
    rw [DataType.common_self] at hl' hr'
    exact ⟨l₀, r₀, hl₀, hr₀, by rw [hl'.eq_self, hr'.eq_self]⟩

theorem stepsTo_coerceOperands (e : Expr) : e.StepsTo ctx c e.coerceOperands := by
  rcases coerceOperands_cases e with heq | ⟨op, l, r, s, t, rfl, hs, ht, hst, h⟩
  · exact heq.symm ▸ .refl e
  -- With the new cast the operands have one type, and stay as they are.
  rcases h with ⟨hcommon, heq⟩ | ⟨hcommon, heq⟩
  · rw [heq]
    refine ⟨rfl, fun hbinds ↦ ?_⟩
    obtain ⟨l', r', hl, hr, rfl⟩ := exists_of_comparison_self hbinds (dataType?_cast l t none) ht
    obtain ⟨l₀, hl₀, hs₀, hmeets⟩ := exists_meets_of_cast hl hs hst
    exact .comparison hl₀ hr hs₀ (hr.keepsType t ht) (hcommon.symm ▸ hmeets) (.same hcommon.symm)
  · rw [heq]
    refine ⟨rfl, fun hbinds ↦ ?_⟩
    obtain ⟨l', r', hl, hr, rfl⟩ := exists_of_comparison_self hbinds hs (dataType?_cast r s none)
    obtain ⟨r₀, hr₀, ht₀, hmeets⟩ := exists_meets_of_cast hr ht hst.symm
    exact .comparison hl hr₀ (hl.keepsType s hs) ht₀ (.same hcommon.symm) (hcommon.symm ▸ hmeets)

theorem stepsTo_bindCast (e : Expr) : e.StepsTo ctx c (e.bindCast ctx.casts) := by
  rcases bindCast_cases ctx.casts e with heq | ⟨x, source, target, function, rfl, hs, hf, heq⟩
  · exact heq.symm ▸ .refl e
  · rw [heq]
    refine ⟨rfl, fun hbinds ↦ ?_⟩
    cases hbinds with
    | cast hx hsource hb =>
      refine .cast hx hsource (.inr ?_)
      rcases hb with hb | hb
      · obtain rfl := Option.some.inj hb
        exact ⟨function, hf, rfl⟩
      · exact hb

/-! ### Stars -/

/-- Fields in front of a list stay. -/
theorem ExpandsTo.of_fields {fs : List Field} {es es' : List Expr}
    (h : ExpandsTo ctx c (fs.map field ++ es) es') :
    ∃ es'', es' = fs.map field ++ es'' ∧ ExpandsTo ctx c es es'' := by
  induction fs generalizing es' with
  | nil => exact ⟨es', rfl, h⟩
  | cons f fs ih =>
    rw [List.map_cons, List.cons_append] at h
    cases h with
    | cons _ hf h =>
      cases hf with
      | field _ =>
        obtain ⟨es'', rfl, hes⟩ := ih h
        exact ⟨es'', rfl, hes⟩

/-- Columns in place of each star are what a list with stars expands to. -/
theorem expandsTo_of_expandStars {cs cs' : List Column} (hcs' : c.schema = .ok cs')
    (hlength : cs'.length = cs.length)
    (hover : ∀ (d : Column) (i : Nat), cs[i]? = some d → (d.toField i).IsOver c) {es es' : List Expr}
    (h : ExpandsTo ctx c (expandStars cs es) es') : ExpandsTo ctx c es es' := by
  induction es generalizing es' with
  | nil => exact h
  | cons e es ih =>
    rw [expandStars, List.flatMap_cons, ← expandStars] at h
    cases hstar : e.isStar with
    | false =>
      rw [hstar, if_neg Bool.false_ne_true, List.singleton_append] at h
      cases h with
      | star _ _ _ _ => cases hstar
      | cons hfalse he h => exact .cons hfalse he (ih h)
    | true =>
      obtain rfl := eq_star_of_isStar hstar
      rw [hstar, if_pos rfl, Column.bindAll_eq] at h
      obtain ⟨es'', rfl, hes⟩ := h.of_fields
      refine .star hcs' ?_ ?_ (ih hes)
      · rw [hlength, Column.map_index_toFields]
      · rw [Column.toFields, List.forall_mem_map]
        exact fun d hmem ↦ hover d.1 d.2 (List.mem_zipIdx_iff_getElem?.1 hmem)

end Expr

/-! ### Steps of plans -/

namespace Plan

variable {ctx : Context}

/-- Every bound form of the second plan is one of the first plan. -/
def StepsTo (ctx : Context) (p p₁ : Plan) : Prop :=
  ∀ q : Plan, p₁.BindsTo ctx q → p.BindsTo ctx q

theorem StepsTo.refl (p : Plan) : p.StepsTo ctx p := fun _ ↦ id

theorem StepsTo.trans {p p₁ p₂ : Plan} (h : p.StepsTo ctx p₁) (h' : p₁.StepsTo ctx p₂) :
    p.StepsTo ctx p₂ :=
  fun q hq ↦ h q (h' q hq)

/-- An operator over a stepping input steps. -/
theorem stepsTo_mapChildren {p : Plan} {g : Plan → Plan}
    (h : ∀ c ∈ p.children, c.StepsTo ctx (g c)) : p.StepsTo ctx (p.mapChildren g) := by
  intro q hq
  cases p with
  | unresolvedTable _ _ | table _ _ => exact hq
  | project c _ =>
    cases hq with
    | project hc hes => exact .project (h c List.mem_cons_self _ hc) hes
  | filter c _ =>
    cases hq with
    | filter hc he => exact .filter (h c List.mem_cons_self _ hc) he
  | groupBy c _ _ =>
    cases hq with
    | groupBy hc has hgs => exact .groupBy (h c List.mem_cons_self _ hc) has hgs
  | sort c _ =>
    cases hq with
    | sort hc hks => exact .sort (h c List.mem_cons_self _ hc) hks
  | limit c n =>
    cases hq with
    | limit _ hc => exact .limit n (h c List.mem_cons_self _ hc)
  | offset c n =>
    cases hq with
    | offset _ hc => exact .offset n (h c List.mem_cons_self _ hc)

/-- An operator whose expressions step over every bound form of its input steps. -/
theorem stepsTo_mapExpressions {p : Plan} {g : Expr → Expr}
    (hg : ∀ c ∈ p.children, ∀ {c'}, c.BindsTo ctx c' → ∀ e : Expr, e.StepsTo ctx c' (g e)) :
    p.StepsTo ctx (p.mapExpressions g) := by
  intro q hq
  cases p with
  | unresolvedTable _ _ | table _ _ | limit _ _ | offset _ _ => exact hq
  | project c _ =>
    cases hq with
    | project hc hes => exact .project hc (Expr.StepsTo.expandsTo_map (hg c List.mem_cons_self hc) hes)
  | filter c e =>
    cases hq with
    | filter hc he => exact .filter hc ((hg c List.mem_cons_self hc e).bindsTo he)
  | groupBy c _ _ =>
    cases hq with
    | groupBy hc has hgs =>
      have hsteps := hg c List.mem_cons_self hc
      exact .groupBy hc (Expr.StepsTo.forall₂_map hsteps has) (Expr.StepsTo.forall₂_map hsteps hgs)
  | sort c _ =>
    cases hq with
    | sort hc hks =>
      refine .sort hc ((List.forall₂_map_left_iff.1 hks).imp fun k _ hk ↦ ?_)
      exact ⟨(hg c List.mem_cons_self hc k.expr).bindsTo hk.expr, hk.ascending, hk.nullsFirst⟩

/-- A transformation steps, if its function does. -/
theorem stepsTo_transformUp {f : Plan → Plan} (hf : ∀ p : Plan, p.StepsTo ctx (f p)) (p : Plan) :
    p.StepsTo ctx (p.transformUp f) :=
  transformUp_rel (R := StepsTo ctx) .trans stepsTo_mapChildren hf p

/-- A transformation of all expressions steps, if its function does over every input. -/
theorem stepsTo_transformExpressionsUp {g : Expr → Expr}
    (hg : ∀ (c : Plan) (e : Expr), e.StepsTo ctx c (g e)) (p : Plan) :
    p.StepsTo ctx (p.transformExpressionsUp g) :=
  stepsTo_transformUp
    (fun _ ↦ stepsTo_mapExpressions fun _ _ c' _ e ↦ Expr.stepsTo_transformUp (hg c') e) p

theorem stepsTo_bindTable (p : Plan) : p.StepsTo ctx (p.bindTable ctx) := by
  rcases bindTable_cases ctx p with heq | ⟨database, name, schema, rfl, h, heq⟩
  · exact heq.symm ▸ .refl p
  · rw [heq]
    intro q hq
    cases hq with
    | table _ _ => exact .unresolvedTable h

theorem stepsTo_expandStars (p : Plan) : p.StepsTo ctx p.expandStars := by
  rcases expandStars_cases p with heq | ⟨c, es, cs, rfl, hcs, heq⟩
  · exact heq.symm ▸ .refl p
  · rw [heq]
    intro q hq
    cases hq with
    | project hc hes =>
      obtain ⟨cs', hcs', hshapes⟩ := hc.elaborates.exists_schema hcs
      have hlength : cs'.length = cs.length := by simpa using congrArg List.length hshapes
      exact .project hc <| Expr.expandsTo_of_expandStars hcs' hlength
        (fun _ _ ↦ Field.isOver_of_elaborates hc.elaborates hcs) hes

theorem stepsTo_bindColumns (p : Plan) : p.StepsTo ctx p.bindColumns := by
  rcases bindColumns_cases p with heq | ⟨cs, hcs, heq⟩
  · exact heq.symm ▸ .refl p
  · rw [heq]
    refine stepsTo_mapExpressions fun c hc c' hbinds e ↦ Expr.stepsTo_transformUp ?_ e
    exact Expr.stepsTo_bindColumn fun _ _ ↦
      Field.isOver_of_elaborates hbinds.elaborates (resolvedSchema?_of_inputSchema? hcs hc)

end Plan

/-- **No standard rule adds bound forms.** -/
theorem Rule.stepsTo_of_mem_standard {ctx : Context} (hc : ctx.catalog.OnlyAggregates) {r : Rule}
    (hr : r ∈ Rule.standard) (p : Plan) : p.StepsTo ctx (r.apply ctx p) := by
  rcases mem_standard_iff.1 hr with rfl | rfl | rfl | rfl | rfl | rfl
  · exact Plan.stepsTo_transformUp Plan.stepsTo_bindTable p
  · exact Plan.stepsTo_transformUp Plan.stepsTo_expandStars p
  · exact Plan.stepsTo_transformUp Plan.stepsTo_bindColumns p
  · exact Plan.stepsTo_transformExpressionsUp (fun _ ↦ Expr.stepsTo_bindCall hc) p
  · exact Plan.stepsTo_transformExpressionsUp (fun _ ↦ Expr.stepsTo_coerceOperands) p
  · exact Plan.stepsTo_transformExpressionsUp (fun _ ↦ Expr.stepsTo_bindCast) p

namespace Analyzer

variable {a : Analyzer}

/-- No number of passes adds bound forms. -/
theorem stepsTo_iterate (hrules : a.rules = Rule.standard) (hc : a.catalog.OnlyAggregates)
    (p : Plan) (k : Nat) : p.StepsTo a.toContext (a.pass^[k] p) :=
  iterate_induction (P := fun p₁ ↦ p.StepsTo a.toContext p₁) hrules
    (fun _ hr p₁ h ↦ h.trans (Rule.stepsTo_of_mem_standard hc hr p₁)) (.refl p) k

/-- **The result of an analysis is a bound form of the plan.** -/
theorem bindsTo_of_analyze (hrules : a.rules = Rule.standard) (hc : a.catalog.OnlyAggregates)
    {p q : Plan} (h : a.analyze p = .ok q) : p.BindsTo a.toContext q := by
  obtain ⟨⟨k, rfl⟩, -, -⟩ := iterate_of_analyze hrules hc h
  exact stepsTo_iterate hrules hc p k _ (isSettled_of_analyze hrules h).bindsTo

/-- The events of a log. -/
def loggedEvents : TableSchema :=
  ⟨"events", [⟨"id", .integer, false, "events"⟩, ⟨"at", .string, true, "events"⟩]⟩

/-- The standard analyzer over the database of the log, with two passes. -/
def logAnalyzer : Analyzer :=
  { Analyzer.ofCatalog
      { Catalog.standard with databases := ⟨[("log", ⟨[("events", loggedEvents)]⟩)]⟩ }
      { maxIterations := 2 } with currentDatabase := "log" }

/-- The first three events of number seven in the falling order of a key, with the columns that are
given. -/
def sortedSevens (events : Plan) (columns : List Expr) (number key : Expr) : Plan :=
  .limit (.sort (.filter (.project events columns) (.comparison .eq number
    (.literal (.bigInteger 7) .bigInteger))) [⟨key, false, true⟩]) 3

/-- The events, with names. -/
def namedSevens : Plan :=
  sortedSevens (.unresolvedTable none "Events") [.star] (.column none "ID")
    (.column (some "EVENTS") "At")

/-- The events, with the table and its columns. -/
def boundSevens : Plan :=
  let id : Expr := .field ⟨0, "events", "id", .integer, false⟩
  let time : Expr := .field ⟨1, "events", "at", .string, true⟩
  sortedSevens (.table "log" loggedEvents) [id, time]
    (.cast id .bigInteger <| some ⟨.integer, .bigInteger,
      (Cast.ofInteger .bigInteger fun n ↦ .ok (.bigInteger n.toInt64)).function⟩) time

theorem analyze_namedSevens : logAnalyzer.analyze namedSevens = .ok boundSevens :=
  analyze_eq_ok_of_pass_eq rfl rfl rfl le_rfl

/-- The name of the table, the star and the two names of columns become the table and its columns,
and the operands meet at big integers. -/
theorem bindsTo_of_analyze_sevens :
    (logAnalyzer.rules = Rule.standard ∧ logAnalyzer.catalog.OnlyAggregates ∧
      logAnalyzer.analyze namedSevens = .ok boundSevens) ∧
      namedSevens.BindsTo logAnalyzer.toContext boundSevens :=
  have hc := Catalog.standard_onlyAggregates.of_functions_eq rfl
  ⟨⟨rfl, hc, analyze_namedSevens⟩, bindsTo_of_analyze rfl hc analyze_namedSevens⟩

end Analyzer

end LogicalQuery
