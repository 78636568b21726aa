import LogicalQuery.Proofs.Analysis.Refinement

/-!
# Invariants of the analysis

An analysis binds columns to the input of an operator while that input may still change. It does so
only once the input is resolved, and from then on an input changes in a restricted way. A relation
between inputs and expressions is therefore kept by an analysis, if it bears such changes of the
input and allows for the few nodes that the rules put into a plan: `KeptOver` lists them. Most
relations look at the shape of the input alone, which stays the same (`Kept`).
-/

namespace LogicalQuery

/-! ### Expressions -/

/-- A property that holds of all nodes which the rules for comparisons and casts put into an
expression, whatever their children are. -/
structure KeptByCoercion (casts : CastRegistry) (P : Expr → Prop) : Prop where
  comparison : ∀ op l r, P (.comparison op l r)
  cast : ∀ e t, P (.cast e t none)
  boundCast : ∀ e source target function, casts.function source target = .ok function →
    P (.cast e target (some ⟨source, target, function⟩))

namespace Expr

variable {casts : CastRegistry} {P : Expr → Prop} {e : Expr}

theorem All.bindColumn {columns : List Column}
    (hfield : ∀ (c : Column) (i : Nat), columns[i]? = some c → P (c.bind i)) (h : e.All P) :
    (e.bindColumn columns).All P := by
  rcases bindColumn_cases columns e with heq | ⟨table, name, c, index, rfl, hmem, -, heq⟩
  · rwa [heq]
  · rw [heq]
    have hc := hfield c index (List.mem_zipIdx_iff_getElem?.1 hmem)
    exact all_iff.2 ⟨hc, fun c hc ↦ absurd hc List.not_mem_nil⟩

theorem All.bindCall (haggregate : ∀ g e, P (.aggregate g e)) {catalog : Catalog}
    (hc : catalog.OnlyAggregates) (h : e.All P) : (e.bindCall catalog).All P := by
  rcases bindCall_cases hc e with heq | ⟨name, arg, g, rfl, -, heq⟩
  · rwa [heq]
  · rw [heq]
    exact all_iff.2 ⟨haggregate g arg, (all_iff.1 h).2⟩

theorem All.coerceOperands (hP : KeptByCoercion casts P) (h : e.All P) :
    e.coerceOperands.All P := by
  rcases coerceOperands_cases e with heq | ⟨op, l, r, s, t, rfl, -, -, -, heq⟩
  · rwa [heq]
  · have hl : l.All P := h.children (by simp [Expr.children])
    have hr : r.All P := h.children (by simp [Expr.children])
    have hcast {e : Expr} (t : DataType) (he : e.All P) : (cast e t none).All P :=
      all_iff.2 ⟨hP.cast e t, by simpa [Expr.children] using he⟩
    rcases heq with ⟨-, heq⟩ | ⟨-, heq⟩
    · rw [heq]
      exact all_iff.2 ⟨hP.comparison .., by simpa [Expr.children] using ⟨hcast t hl, hr⟩⟩
    · rw [heq]
      exact all_iff.2 ⟨hP.comparison .., by simpa [Expr.children] using ⟨hl, hcast s hr⟩⟩

theorem All.bindCast (hP : KeptByCoercion casts P) (h : e.All P) : (e.bindCast casts).All P := by
  rcases bindCast_cases casts e with heq | ⟨child, source, target, function, rfl, -, hf, heq⟩
  · rwa [heq]
  · rw [heq]
    exact all_iff.2 ⟨hP.boundCast child source target function hf, (all_iff.1 h).2⟩

end Expr

/-! ### Kept relations -/

/-- A relation between an input and the expressions over it that the rules of an analysis keep, if
they change inputs in the given way. It bears such changes, it does not look at the children of a
node, and it holds of all nodes that the rules put into a plan. -/
structure KeptOver (ctx : Context) (Change : Plan → Plan → Prop) (R : Plan → Expr → Prop) :
    Prop where
  changed : ∀ {c c' s}, Change c c' → R c s → R c' s
  rebuilt : ∀ {c s} (g : Expr → Expr), R c s → R c (s.mapChildren g)
  field : ∀ {c columns}, c.resolvedSchema? = some columns →
    ∀ (column : Column) (i : Nat), columns[i]? = some column → R c (column.bind i)
  aggregate : ∀ c g e, R c (.aggregate g e)
  coercion : ∀ c, KeptByCoercion ctx.casts (R c)

variable {ctx : Context} {Change : Plan → Plan → Prop} {R : Plan → Expr → Prop}

namespace Plan

theorem resolvedSchema?_of_inputSchema? {p c : Plan} {cs : List Column}
    (h : p.inputSchema? = some cs) (hc : c ∈ p.children) : c.resolvedSchema? = some cs := by
  cases p with
  | unresolvedTable _ _ | table _ _ => exact absurd hc List.not_mem_nil
  | project c' _ | filter c' _ | groupBy c' _ _ | sort c' _ | limit c' _ | offset c' _ =>
    obtain rfl := List.mem_singleton.1 hc
    cases hschema : c.resolvedSchema? with
    | none => simp [inputSchema?, children, hschema] at h
    | some cs' => simpa [inputSchema?, children, hschema] using h

/-- The relation holds between every input in the plan and all subexpressions of the operator over
it. -/
def HoldsOver (R : Plan → Expr → Prop) (p : Plan) : Prop :=
  p.All fun n ↦ ∀ c ∈ n.children, ∀ e ∈ n.expressions, e.All (R c)

namespace HoldsOver

/-- A relation survives a change of the inputs of an operator. -/
theorem mapChildren (hR : KeptOver ctx Change R) {g : Plan → Plan} {p : Plan} (h : p.HoldsOver R)
    (hg : ∀ c ∈ p.children, Change c (g c) ∧ (g c).HoldsOver R) :
    (p.mapChildren g).HoldsOver R := by
  refine all_iff.2 ⟨?_, ?_⟩
  · rw [children_mapChildren, expressions_mapChildren]
    exact List.forall_mem_map.2 fun c hc e he ↦
      (h.self c hc e he).imp fun _ ↦ hR.changed (hg c hc).1
  · rw [children_mapChildren]
    exact List.forall_mem_map.2 fun c hc ↦ (hg c hc).2

/-- A relation survives when the expressions of an operator are changed by a function that keeps
it. -/
theorem mapExpressions {g : Expr → Expr} {p : Plan} (h : p.HoldsOver R)
    (hg : ∀ c ∈ p.children, ∀ e ∈ p.expressions, e.All (R c) → (g e).All (R c)) :
    (p.mapExpressions g).HoldsOver R := by
  refine all_iff.2 ⟨?_, ?_⟩
  · rw [children_mapExpressions, expressions_mapExpressions]
    exact fun c hc ↦ List.forall_mem_map.2 fun e he ↦ hg c hc e he (h.self c hc e he)
  · rw [children_mapExpressions]
    exact fun c hc ↦ h.children hc

theorem transformExpressions (hR : KeptOver ctx Change R) {g : Expr → Expr} {p : Plan}
    (h : p.HoldsOver R) (hg : ∀ c ∈ p.children, ∀ e : Expr, e.All (R c) → (g e).All (R c)) :
    (p.transformExpressions g).HoldsOver R :=
  h.mapExpressions fun c hc _ _ he ↦ he.transformUp (fun _ g' ↦ hR.rebuilt g') (hg c hc)

/-- A relation survives a transformation that changes inputs in the given way, if the function of
the transformation keeps the relation. -/
theorem transformUp (hR : KeptOver ctx Change R) {f : Plan → Plan}
    (hf : ∀ p : Plan, Change p (p.transformUp f))
    (hf' : ∀ p : Plan, p.HoldsOver R → (f p).HoldsOver R) {p : Plan} (h : p.HoldsOver R) :
    (p.transformUp f).HoldsOver R := by
  induction p using children_induction with
  | node p ih =>
    rw [transformUp_eq]
    exact hf' _ (h.mapChildren hR fun c hc ↦ ⟨hf c, ih c hc (h.children hc)⟩)

theorem transformExpressionsUp (hR : KeptOver ctx Change R) {g : Expr → Expr}
    (hg : ∀ p : Plan, Change p (p.transformExpressionsUp g))
    (hg' : ∀ (c : Plan) (e : Expr), e.All (R c) → (g e).All (R c)) {p : Plan}
    (h : p.HoldsOver R) : (p.transformExpressionsUp g).HoldsOver R :=
  h.transformUp hR hg fun _ hp ↦ hp.transformExpressions hR fun c _ ↦ hg' c

theorem bindTable {p : Plan} (h : p.HoldsOver R) : (p.bindTable ctx).HoldsOver R := by
  rcases bindTable_cases ctx p with heq | ⟨database, name, schema, rfl, -, heq⟩
  · rwa [heq]
  · rw [heq]
    exact all_iff.2 ⟨fun c hc ↦ absurd hc List.not_mem_nil, fun c hc ↦ absurd hc List.not_mem_nil⟩

theorem expandStars (hR : KeptOver ctx Change R) {p : Plan} (h : p.HoldsOver R) :
    p.expandStars.HoldsOver R := by
  rcases expandStars_cases p with heq | ⟨input, es, columns, rfl, hcolumns, heq⟩
  · rwa [heq]
  · rw [heq]
    refine all_iff.2 ⟨?_, (all_iff.1 h).2⟩
    intro c hc e he
    obtain rfl := List.mem_singleton.1 hc
    rw [expressions, Expr.expandStars, List.mem_flatMap] at he
    obtain ⟨e', he', hmem⟩ := he
    -- The expression is a column in place of a star, or it was there before.
    split at hmem
    next =>
      obtain ⟨⟨column, i⟩, hcolumn, rfl⟩ := List.mem_map.1 hmem
      have hfield := hR.field hcolumns column i (List.mem_zipIdx_iff_getElem?.1 hcolumn)
      exact Expr.all_iff.2 ⟨hfield, fun c hc ↦ absurd hc List.not_mem_nil⟩
    next =>
      obtain rfl := List.mem_singleton.1 hmem
      exact h.self c hc e he'

theorem bindColumns (hR : KeptOver ctx Change R) {p : Plan} (h : p.HoldsOver R) :
    p.bindColumns.HoldsOver R := by
  rcases bindColumns_cases p with heq | ⟨columns, hcolumns, heq⟩
  · rwa [heq]
  · rw [heq]
    exact h.transformExpressions hR fun c hc _ he ↦
      he.bindColumn (hR.field (resolvedSchema?_of_inputSchema? hcolumns hc))

end HoldsOver

end Plan

/-- **The standard rules keep kept relations.** -/
theorem Rule.holdsOver_of_mem_standard (hc : ctx.catalog.OnlyAggregates)
    (hR : KeptOver ctx Change R) {r : Rule} (hr : r ∈ Rule.standard)
    (hchange : ∀ p, Change p (r.apply ctx p)) {p : Plan} (h : p.HoldsOver R) :
    (r.apply ctx p).HoldsOver R := by
  rcases mem_standard_iff.1 hr with rfl | rfl | rfl | rfl | rfl | rfl
  · exact h.transformUp hR hchange fun _ hp ↦ hp.bindTable
  · exact h.transformUp hR hchange fun _ hp ↦ hp.expandStars hR
  · exact h.transformUp hR hchange fun _ hp ↦ hp.bindColumns hR
  · exact h.transformExpressionsUp hR hchange fun c _ he ↦ he.bindCall (hR.aggregate c) hc
  · exact h.transformExpressionsUp hR hchange fun c _ he ↦ he.coerceOperands (hR.coercion c)
  · exact h.transformExpressionsUp hR hchange fun c _ he ↦ he.bindCast (hR.coercion c)

namespace Analyzer

variable {a : Analyzer}

/-- Passes keep kept relations. -/
theorem holdsOver_iterate (hrules : a.rules = Rule.standard) (hc : a.catalog.OnlyAggregates)
    (hR : KeptOver a.toContext Change R)
    (hchange : ∀ r ∈ Rule.standard, ∀ p, Change p (r.apply a.toContext p)) {p : Plan}
    (h : p.HoldsOver R) (k : Nat) : (a.pass^[k] p).HoldsOver R :=
  iterate_induction hrules
    (fun r hr _ hp ↦ Rule.holdsOver_of_mem_standard hc hR hr (hchange r hr) hp) h k

end Analyzer

/-! ### Kept properties -/

/-- A property of expressions, with respect to the columns of the input, that the rules of an
analysis keep. It does not look at the children of a node, and it holds of all nodes that the rules
put into a plan. A property for an input without columns is one for all inputs. -/
structure Kept (ctx : Context) (P : List Column → Expr → Prop) : Prop where
  of_nil : ∀ {cs s}, P [] s → P cs s
  rebuilt : ∀ {cs s} (g : Expr → Expr), P cs s → P cs (s.mapChildren g)
  field : ∀ {cs : List Column} {c : Column} {i : Nat}, cs[i]? = some c →
    P (cs.map Column.unnamed) (c.bind i)
  aggregate : ∀ cs g e, P cs (.aggregate g e)
  comparison : ∀ cs op l r, P cs (.comparison op l r)
  cast : ∀ cs e t, P cs (.cast e t none)
  boundCast : ∀ cs e source target function, ctx.casts.function source target = .ok function →
    P cs (.cast e target (some ⟨source, target, function⟩))

variable {P : List Column → Expr → Prop}

/-- The columns of a resolved plan are its shape, up to their names. -/
theorem Plan.shape_of_resolvedSchema? {p : Plan} {cs : List Column}
    (h : p.resolvedSchema? = some cs) : p.shape = cs.map Column.unnamed := by
  obtain ⟨hresolved, hschema⟩ := resolvedSchema?_eq_some_iff.1 h
  exact shape_of_schema (named_of_resolved hresolved) hschema

/-- The property holds of all subexpressions of all operators, with respect to the shape of the
input. -/
def Plan.Holds (P : List Column → Expr → Prop) (p : Plan) : Prop :=
  p.All fun n ↦ ∀ c ∈ n.children, ∀ e ∈ n.expressions, e.All (P c.shape)

/-- A kept property is a relation to the shape of the input, which bears that inputs are refined. -/
theorem Kept.over (hP : Kept ctx P) : KeptOver ctx Plan.Refines fun c ↦ P c.shape where
  changed {c c' s} hrefines h := by
    -- An input that is not named counts as one without columns, whatever it becomes.
    cases hnamed : c.named with
    | true => rwa [hrefines.shape hnamed]
    | false =>
      rw [Plan.shape_eq_nil hnamed] at h
      exact hP.of_nil h
  rebuilt g h := hP.rebuilt g h
  field hcolumns column i h := by
    rw [Plan.shape_of_resolvedSchema? hcolumns]
    exact hP.field h
  aggregate c := hP.aggregate c.shape
  coercion c := ⟨hP.comparison c.shape, hP.cast c.shape, hP.boundCast c.shape⟩

/-- Passes keep kept properties. -/
theorem Analyzer.holds_iterate {a : Analyzer} (hrules : a.rules = Rule.standard)
    (hc : a.catalog.OnlyAggregates) (hP : Kept a.toContext P) {p : Plan} (h : p.Holds P)
    (k : Nat) : (a.pass^[k] p).Holds P :=
  holdsOver_iterate hrules hc hP.over (fun _ hr ↦ Rule.refines_of_mem_standard hc hr) h k

end LogicalQuery
