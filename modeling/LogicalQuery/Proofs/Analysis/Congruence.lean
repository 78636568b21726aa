import LogicalQuery.Proofs.Analysis.Step
import LogicalQuery.Proofs.Plan.Equality
import LogicalQuery.Proofs.Plan.Shape

/-!
# Analyses of equal plans

Equal plans differ in the functions of their bound casts at most, and no standard rule looks at these:
it makes equal plans of equal plans, as long as the constructors of the catalog do so with the
arguments of calls (`Catalog.RespectsBeq`). So do passes, in any number (`respectsBeq_iterate`).
-/

namespace LogicalQuery

/-- The functions of the catalog give equal expressions for equal arguments, or none for both. -/
def Catalog.RespectsBeq (c : Catalog) : Prop :=
  ∀ name f, c.function? name = some f → ∀ args args' : List Expr, (args == args') = true →
    ((f args).toOption == (f args').toOption) = true

/-! ### Expressions -/

namespace Expr

/-- The function gives equal expressions for equal expressions. -/
def RespectsBeq (f : Expr → Expr) : Prop := ∀ e e' : Expr, (e == e') = true → (f e == f e') = true

variable {f : Expr → Expr}

/-- To respect equality is to be blind to the functions of bound casts, up to these functions. -/
theorem respectsBeq_iff : RespectsBeq f ↔ ∀ e : Expr, (f e.erase).erase = (f e).erase := by
  refine ⟨fun h e ↦ beq_iff_erase_eq.1 (h _ _ (beq_iff_erase_eq.2 e.erase_erase)),
    fun h e e' heq ↦ beq_iff_erase_eq.2 ?_⟩
  rw [← h e, beq_iff_erase_eq.1 heq, h e']

theorem RespectsBeq.erase_eq (hf : RespectsBeq f) {e e' : Expr} (h : e.erase = e'.erase) :
    (f e).erase = (f e').erase :=
  beq_iff_erase_eq.1 (hf e e' (beq_iff_erase_eq.2 h))

theorem fits_erase {e e' : Expr} (h : e.erase = e'.erase) (c : BoundCast) :
    e.fits c.erase = e'.fits c := by
  rw [fits, fits, ← dataType?_erase e, h, dataType?_erase]
  rfl

/-- A node over children that respect equality respects equality. -/
theorem erase_mapChildren_erase {e : Expr} (h : ∀ c ∈ e.children, (f c.erase).erase = (f c).erase) :
    (e.erase.mapChildren f).erase = (e.mapChildren f).erase := by
  cases e with
  | literal _ _ | star | column _ _ | field _ => rfl
  | renamed c _ | not c | aggregate _ c =>
    simp only [erase, mapChildren, h c List.mem_cons_self]
  | comparison _ l r =>
    simp only [erase, mapChildren, h l (by simp [children]), h r (by simp [children])]
  | cast c t b =>
    have hc := h c List.mem_cons_self
    simp only [erase, mapChildren, recast, hc, cast.injEq, true_and]
    cases b with
    | none => rfl
    | some b =>
      simp only [Option.map_some, Option.filter_some, fits_erase hc]
      split <;> rfl
  | call n es =>
    simp only [erase, mapChildren, eraseAll_eq, List.map_map, call.injEq, true_and]
    exact List.map_congr_left h

/-- A transformation respects equality, if its function does. -/
theorem respectsBeq_transformUp (hf : RespectsBeq f) : RespectsBeq (transformUp f) := by
  refine respectsBeq_iff.2 fun e ↦ ?_
  induction e using children_induction with
  | node e ih =>
    rw [transformUp_eq, transformUp_eq f e]
    exact hf.erase_eq (erase_mapChildren_erase ih)

/-! ### Steps of expressions -/

theorem respectsBeq_bindColumn (columns : List Column) : RespectsBeq (bindColumn columns) := by
  refine respectsBeq_iff.2 fun e ↦ ?_
  cases e with
  | column _ _ => rfl
  | _ => exact erase_erase _

theorem respectsBeq_bindCall {catalog : Catalog} (hc : catalog.RespectsBeq) :
    RespectsBeq (bindCall catalog) := by
  refine respectsBeq_iff.2 fun e ↦ ?_
  cases e with
  | call n args =>
    rw [erase, bindCall, bindCall]
    cases hf : catalog.function? n with
    | none => exact erase_erase (call n args)
    | some f =>
      have hargs : (eraseAll args == args) = true := by
        rw [beq_iff_map_erase_eq, eraseAll_eq, List.map_map]
        exact List.map_congr_left fun e _ ↦ e.erase_erase
      have hresult := hc n f hf _ _ hargs
      dsimp only
      cases hl : (f (eraseAll args)).toOption <;> cases hr : (f args).toOption
      all_goals rw [hl, hr] at hresult
      · exact erase_erase (call n args)
      · cases hresult
      · cases hresult
      · exact beq_iff_erase_eq.1 hresult
  | _ => exact erase_erase _

theorem erase_coerce (e : Expr) (s t : DataType) :
    (e.erase.coerce s t).erase = (e.coerce s t).erase := by
  unfold coerce
  split
  · exact e.erase_erase
  · simp only [erase, erase_erase]

theorem respectsBeq_coerceOperands : RespectsBeq coerceOperands := by
  refine respectsBeq_iff.2 fun e ↦ ?_
  cases e with
  | comparison op l r =>
    rw [erase, coerceOperands, coerceOperands]
    simp only [resolved_erase, dataType?_erase]
    split
    · split
      · split
        · exact erase_erase (comparison op l r)
        · simp only [erase, erase_coerce]
      · exact erase_erase (comparison op l r)
    · exact erase_erase (comparison op l r)
  | _ => exact erase_erase _

theorem respectsBeq_bindCast (casts : CastRegistry) : RespectsBeq (bindCast casts) := by
  refine respectsBeq_iff.2 fun e ↦ ?_
  cases e with
  | cast c t b =>
    cases b with
    | some b => exact erase_erase (cast c t (some b))
    | none =>
      rw [erase, Option.map_none, bindCast, bindCast]
      simp only [resolved_erase, dataType?_erase]
      split
      · split
        · split
          · simp only [erase, erase_erase]
          · exact erase_erase (cast c t none)
        · exact erase_erase (cast c t none)
      · exact erase_erase (cast c t none)
  | _ => exact erase_erase _

/-! ### Columns of expressions -/

@[simp]
theorem outputColumn_erase (e : Expr) : e.erase.outputColumn = e.outputColumn := by
  have hsource : e.erase.source = e.source := by cases e <;> rfl
  rw [outputColumn_eq, outputColumn_eq, dataType_erase, name_erase, nullable_erase, hsource]

theorem map_erase_expandStars (columns : List Column) (es : List Expr) :
    (expandStars columns (es.map erase)).map erase = (expandStars columns es).map erase := by
  simp only [expandStars, List.flatMap_map, List.map_flatMap, isStar_erase]
  refine List.flatMap_congr fun e _ ↦ ?_
  split
  · rfl
  · simp

end Expr

/-! ### Aggregates -/

theorem FunctionConstructor.ofUnary_beq {name : String} {f : Expr → Expr} (hf : Expr.RespectsBeq f)
    {args args' : List Expr} (h : (args == args') = true) :
    ((ofUnary name f args).toOption == (ofUnary name f args').toOption) = true := by
  match args, args', h with
  | [], [], _ => rfl
  | [e], [e'], h =>
    rw [List.cons_beq_cons, Bool.and_eq_true] at h
    exact hf e e' h.1
  | _ :: _ :: _, _ :: _ :: _, _ => rfl
  | [_], _ :: _ :: _, h | _ :: _ :: _, [_], h =>
    rw [List.cons_beq_cons, Bool.and_eq_true] at h
    exact nomatch h.2

/-- The aggregates respect equality. -/
theorem Catalog.OnlyAggregates.respectsBeq {c : Catalog} (hc : c.OnlyAggregates) :
    c.RespectsBeq := by
  intro name f hf args args' h
  have haggregate (g : AggregateFunction) : Expr.RespectsBeq (Expr.aggregate g) := fun e e' he ↦ by
    rw [Expr.beq_iff_erase_eq] at he ⊢
    rw [Expr.erase, Expr.erase, he]
  rcases hc name f hf with rfl | rfl
  · exact FunctionConstructor.ofUnary_beq (haggregate .count) h
  · exact FunctionConstructor.ofUnary_beq (haggregate .first) h

/-! ### Plans -/

namespace Plan

/-- The function gives equal plans for equal plans. -/
def RespectsBeq (f : Plan → Plan) : Prop := ∀ p p' : Plan, (p == p') = true → (f p == f p') = true

variable {f : Plan → Plan} {g : Expr → Expr}

@[simp]
theorem erase_erase (p : Plan) : p.erase.erase = p.erase := by
  induction p using children_induction with
  | node p ih =>
    rw [erase_eq p, erase_eq, mapChildren_mapExpressions, mapChildren_mapChildren,
      mapExpressions_mapExpressions, mapChildren_congr ih]
    simp only [Expr.erase_erase]

theorem respectsBeq_iff : RespectsBeq f ↔ ∀ p : Plan, (f p.erase).erase = (f p).erase := by
  refine ⟨fun h p ↦ beq_iff_erase_eq.1 (h _ _ (beq_iff_erase_eq.2 p.erase_erase)),
    fun h p p' heq ↦ beq_iff_erase_eq.2 ?_⟩
  rw [← h p, beq_iff_erase_eq.1 heq, h p']

theorem RespectsBeq.erase_eq (hf : RespectsBeq f) {p p' : Plan} (h : p.erase = p'.erase) :
    (f p).erase = (f p').erase :=
  beq_iff_erase_eq.1 (hf p p' (beq_iff_erase_eq.2 h))

/-- An operator over an input that respects equality respects equality. -/
theorem erase_mapChildren_erase {p : Plan} (h : ∀ c ∈ p.children, (f c.erase).erase = (f c).erase) :
    (p.erase.mapChildren f).erase = (p.mapChildren f).erase := by
  rw [erase_eq p, erase_eq, erase_eq (p.mapChildren f)]
  simp only [mapChildren_mapExpressions, mapChildren_mapChildren, mapExpressions_mapExpressions,
    Expr.erase_erase]
  rw [mapChildren_congr h]

/-- Changing the expressions of an operator respects equality, if the change does. -/
theorem respectsBeq_mapExpressions (hg : Expr.RespectsBeq g) : RespectsBeq (mapExpressions g) := by
  refine respectsBeq_iff.2 fun p ↦ ?_
  rw [erase_eq p, erase_eq, erase_eq (p.mapExpressions g)]
  simp only [mapChildren_mapExpressions, mapChildren_mapChildren, mapExpressions_mapExpressions,
    erase_erase, Expr.respectsBeq_iff.1 hg]

/-- **Transformations respect equality**, if their functions do. -/
theorem respectsBeq_transformUp (hf : RespectsBeq f) : RespectsBeq (transformUp f) := by
  refine respectsBeq_iff.2 fun p ↦ ?_
  induction p using children_induction with
  | node p ih =>
    rw [transformUp_eq, transformUp_eq f p]
    exact hf.erase_eq (erase_mapChildren_erase ih)

theorem respectsBeq_transformExpressionsUp (hg : Expr.RespectsBeq g) :
    RespectsBeq (transformExpressionsUp g) :=
  respectsBeq_transformUp (respectsBeq_mapExpressions (Expr.respectsBeq_transformUp hg))

theorem respectsBeq_bindTable (ctx : Context) : RespectsBeq (bindTable ctx) := by
  refine respectsBeq_iff.2 fun p ↦ ?_
  cases p with
  | unresolvedTable _ _ => rfl
  | _ => exact erase_erase _

@[simp]
theorem schema_erase (p : Plan) : p.erase.schema = p.schema := by
  have houtputs (es : List Expr) : outputColumns (es.map Expr.erase) = outputColumns es := by
    simp only [outputColumns, List.mapM_map, Function.comp_def, Expr.outputColumn_erase]
  induction p with
  | unresolvedTable _ _ | table _ _ => rfl
  | project _ es => exact houtputs es
  | groupBy _ as _ => exact houtputs as
  | filter _ _ ih | sort _ _ ih | limit _ _ ih | offset _ _ ih => exact ih

@[simp]
theorem resolvedSchema?_erase (p : Plan) : p.erase.resolvedSchema? = p.resolvedSchema? := by
  rw [resolvedSchema?, resolvedSchema?, resolved_erase, schema_erase]

@[simp]
theorem inputSchema?_erase (p : Plan) : p.erase.inputSchema? = p.inputSchema? := by
  simp only [inputSchema?, children_erase, List.mapM_map, Function.comp_def, resolvedSchema?_erase]

theorem respectsBeq_expandStars : RespectsBeq expandStars := by
  refine respectsBeq_iff.2 fun p ↦ ?_
  cases p with
  | project c es =>
    have hproject (c : Plan) (es : List Expr) :
        (project c es).erase = project c.erase (es.map Expr.erase) := rfl
    rw [hproject, expandStars, expandStars, resolvedSchema?_erase]
    cases c.resolvedSchema? with
    | none => exact erase_erase (project c es)
    | some columns =>
      simp only [hproject, erase_erase, Expr.map_erase_expandStars]
  | _ => exact erase_erase _

theorem respectsBeq_bindColumns : RespectsBeq bindColumns := by
  refine respectsBeq_iff.2 fun p ↦ ?_
  rw [bindColumns, bindColumns, inputSchema?_erase]
  cases p.inputSchema? with
  | none => exact p.erase_erase
  | some columns =>
    have hcolumns := Expr.respectsBeq_transformUp (Expr.respectsBeq_bindColumn columns)
    exact respectsBeq_iff.1 (respectsBeq_mapExpressions hcolumns) p

end Plan

/-- **The standard rules respect equality.** -/
theorem Rule.respectsBeq_of_mem_standard {ctx : Context} (hc : ctx.catalog.RespectsBeq) {r : Rule}
    (hr : r ∈ Rule.standard) : Plan.RespectsBeq (r.apply ctx) := by
  rcases mem_standard_iff.1 hr with rfl | rfl | rfl | rfl | rfl | rfl
  · exact Plan.respectsBeq_transformUp (Plan.respectsBeq_bindTable ctx)
  · exact Plan.respectsBeq_transformUp Plan.respectsBeq_expandStars
  · exact Plan.respectsBeq_transformUp Plan.respectsBeq_bindColumns
  · exact Plan.respectsBeq_transformExpressionsUp (Expr.respectsBeq_bindCall hc)
  · exact Plan.respectsBeq_transformExpressionsUp Expr.respectsBeq_coerceOperands
  · exact Plan.respectsBeq_transformExpressionsUp (Expr.respectsBeq_bindCast ctx.casts)

namespace Analyzer

variable {a : Analyzer}

theorem respectsBeq_pass (hrules : a.rules = Rule.standard) (hc : a.catalog.RespectsBeq) :
    Plan.RespectsBeq a.pass :=
  fun _ _ ↦ pass_rel hrules fun _ hr ↦ Rule.respectsBeq_of_mem_standard hc hr

/-- **Passes make equal plans of equal plans.** -/
theorem respectsBeq_iterate (hrules : a.rules = Rule.standard) (hc : a.catalog.RespectsBeq)
    (k : Nat) : Plan.RespectsBeq a.pass^[k] :=
  fun _ _ h ↦ iterate_rel hrules (fun _ hr ↦ Rule.respectsBeq_of_mem_standard hc hr) h k

end Analyzer

end LogicalQuery
