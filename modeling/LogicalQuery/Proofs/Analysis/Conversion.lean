import LogicalQuery.Proofs.Analysis.Invariant
import LogicalQuery.Proofs.Analysis.Settled
import LogicalQuery.Proofs.Expr.Conversion

/-!
# Coercion is conversion

An analysis makes the operands of comparisons meet by casts, over several passes, as a comparison
waits for the casts inside its operands. The predicate that it ends with has on every row the value
that the predicate at the beginning has when operands are converted during its evaluation
(`eval_eq_evalConverting_of_analyze`). No pass changes the value with conversions, since it takes no
notice of bindings, and a settled predicate leaves nothing to convert.
-/

namespace LogicalQuery

namespace Expr

variable {casts : CastRegistry}

theorem keptByCoercion_isScalar : KeptByCoercion casts (IsScalar casts) where
  comparison _ _ _ := trivial
  cast _ _ := trivial
  boundCast _ _ _ _ hf := ⟨rfl, hf⟩

/-! ### Rules -/

theorem bindColumn_eq_of_isScalar (columns : List Column) {e : Expr} (h : e.IsScalar casts) :
    e.bindColumn columns = e := by
  rcases bindColumn_cases columns e with heq | ⟨table, name, c, index, rfl, -, -, -⟩
  · exact heq
  · exact h.elim

theorem bindCall_eq_of_isScalar (catalog : Catalog) {e : Expr} (h : e.IsScalar casts) :
    e.bindCall catalog = e := by
  cases e with
  | call _ _ => exact h.elim
  | _ => rfl

/-- A cast around the operand of lower rank takes the place of its conversion. -/
theorem evalConverting_coerceOperands (row : Row) (e : Expr) :
    e.coerceOperands.evalConverting casts row = e.evalConverting casts row := by
  rcases coerceOperands_cases e with heq | ⟨op, l, r, s, t, rfl, hs, ht, hst, heq⟩
  · rw [heq]
  · rw [dataType?_eq_some_iff] at hs ht
    rcases heq with ⟨hcommon, heq⟩ | ⟨hcommon, heq⟩
    · rw [heq]
      simp only [evalConverting, dataType, hs, ht, ok_bind, hcommon, DataType.common_self,
        CastRegistry.convertOperand_self, CastRegistry.convertOperand_of_ne _ hst, bind_assoc]
    · rw [heq]
      simp only [evalConverting, dataType, hs, ht, ok_bind, hcommon, DataType.common_self,
        CastRegistry.convertOperand_self, CastRegistry.convertOperand_of_ne _ (Ne.symm hst),
        bind_assoc]

theorem sameValues_coerceOperands {e : Expr} (h : e.All (IsScalar casts)) :
    SameValues casts e e.coerceOperands where
  scalars := h.coerceOperands keptByCoercion_isScalar
  dataType := by
    rcases coerceOperands_cases e with heq | ⟨op, l, r, s, t, rfl, -, -, -, ⟨-, heq⟩ | ⟨-, heq⟩⟩
    · rw [heq]
    · rw [heq, dataType, dataType]
    · rw [heq, dataType, dataType]
  evalConverting row := evalConverting_coerceOperands row e

theorem sameValues_bindCast {e : Expr} (h : e.All (IsScalar casts)) :
    SameValues casts e (e.bindCast casts) := by
  have hscalars := h.bindCast keptByCoercion_isScalar
  rcases bindCast_cases casts e with heq | ⟨child, source, target, function, rfl, -, -, heq⟩
  · rw [heq]
    exact .refl h
  · rw [heq] at hscalars ⊢
    exact ⟨hscalars, rfl, fun row ↦ by rw [evalConverting, evalConverting]⟩

/-! ### Settled scalars -/

/-- When nothing is left to convert, evaluation converts nothing. -/
theorem eval_eq_evalConverting {e : Expr} (he : e.All (IsScalar casts)) (hs : e.All IsSettled)
    (hresolved : e.resolved = true) (row : Row) : e.eval row = e.evalConverting casts row := by
  induction e using children_induction with
  | node e ih =>
    have hchild (c : Expr) (hc : c ∈ e.children) (hresolved : c.resolved = true) :
        c.eval row = c.evalConverting casts row :=
      ih c hc (he.children hc) (hs.children hc) hresolved
    have hscalar := he.self
    have hsettled := hs.self
    cases e with
    | literal _ _ | field _ => rfl
    | star | column _ _ | call _ _ | aggregate _ _ => exact hscalar.elim
    | renamed c _ => exact hchild c List.mem_cons_self hresolved
    | not c =>
      rw [eval, evalConverting]
      exact congrArg₂ Bind.bind (hchild c List.mem_cons_self hresolved) rfl
    | comparison op l r =>
      rw [resolved, Bool.and_eq_true] at hresolved
      obtain ⟨t, hl⟩ := exists_dataType?_of_named (named_of_resolved hresolved.1)
      have hr : r.dataType? = some t := (show l.dataType? = r.dataType? from hsettled) ▸ hl
      rw [dataType?_eq_some_iff] at hl hr
      rw [eval, evalConverting, hchild l (by simp [children]) hresolved.1,
        hchild r (by simp [children]) hresolved.2, hl, hr]
      simp only [ok_bind, DataType.common_self, CastRegistry.convertOperand_self]
    | cast c t b =>
      rw [resolved, Bool.and_eq_true] at hresolved
      obtain ⟨b, rfl⟩ := Option.isSome_iff_exists.1 hresolved.1
      obtain ⟨rfl, hf⟩ := hscalar
      have hfits : c.fits b = true := hsettled
      rw [fits, beq_iff_eq, dataType?_eq_some_iff] at hfits
      rw [eval, evalConverting, hchild c List.mem_cons_self hresolved.2, hfits]
      simp only [ok_bind, CastRegistry.convert_eq_apply hf]

end Expr

/-! ### Filters -/

/-- The plan is a filter by a predicate with the type and the values of the given one. -/
def Plan.FiltersBy (casts : CastRegistry) (e : Expr) (p : Plan) : Prop :=
  ∃ input e', p = .filter input e' ∧ Expr.SameValues casts e e'

/-- A standard rule keeps the values of the predicate of a filter. -/
theorem Rule.filtersBy_of_mem_standard {r : Rule} (hr : r ∈ Rule.standard) {ctx : Context}
    {e : Expr} {p : Plan} (h : p.FiltersBy ctx.casts e) :
    (r.apply ctx p).FiltersBy ctx.casts e := by
  obtain ⟨input, e', rfl, he'⟩ := h
  have htransform {f : Expr → Expr}
      (hf : ∀ s : Expr, s.All (Expr.IsScalar ctx.casts) → Expr.SameValues ctx.casts s (f s))
      (input' : Plan) : (Plan.filter input' (e'.transformUp f)).FiltersBy ctx.casts e :=
    ⟨input', _, rfl, he'.trans (Expr.sameValues_transformUp hf he'.scalars)⟩
  rcases mem_standard_iff.1 hr with rfl | rfl | rfl | rfl | rfl | rfl
  · exact ⟨_, e', rfl, he'⟩
  · exact ⟨_, e', rfl, he'⟩
  · show (Plan.transformUp _ _).FiltersBy _ _
    rw [Plan.transformUp_eq]
    rcases Plan.bindColumns_cases (Plan.mapChildren (Plan.transformUp Plan.bindColumns)
      (.filter input e')) with heq | ⟨columns, -, heq⟩
    · rw [heq]
      exact ⟨_, e', rfl, he'⟩
    · rw [heq]
      refine htransform (fun s hs ↦ ?_) _
      rw [Expr.bindColumn_eq_of_isScalar columns hs.self]
      exact .refl hs
  · refine htransform (fun s hs ↦ ?_) _
    rw [Expr.bindCall_eq_of_isScalar ctx.catalog hs.self]
    exact .refl hs
  · exact htransform (fun _ hs ↦ Expr.sameValues_coerceOperands hs) _
  · exact htransform (fun _ hs ↦ Expr.sameValues_bindCast hs) _

namespace Analyzer

variable {a : Analyzer}

/-- **Coercion is conversion.** Let a filter by a predicate of bound columns, constants, renamings,
negations, comparisons and casts be analyzed with the standard rules, over any catalog and any
casts. Then the result is a filter by a predicate that has on every row the value, or the error, of
the first predicate when the operands of comparisons and the children of casts are converted during
its evaluation. -/
theorem eval_eq_evalConverting_of_analyze (hrules : a.rules = Rule.standard) {input q : Plan}
    {e : Expr} (he : e.All (Expr.IsScalar a.casts)) (h : a.analyze (.filter input e) = .ok q) :
    ∃ input' e', q = .filter input' e' ∧
      ∀ row : Row, e'.eval row = e.evalConverting a.casts row := by
  have hsettled := isSettled_of_analyze hrules h
  obtain ⟨k, -, rfl, -, -⟩ := settle_eq_ok_iff.1 (analyze_eq_ok_iff.1 h).1
  obtain ⟨input', e', hq, hvalues⟩ : (a.pass^[k + 1] (.filter input e)).FiltersBy a.casts e :=
    iterate_induction hrules (fun _ hr _ hp ↦ Rule.filtersBy_of_mem_standard hr hp)
      ⟨input, e, rfl, .refl he⟩ (k + 1)
  rw [hq] at hsettled
  refine ⟨input', e', hq, fun row ↦ ?_⟩
  have hresolved := hsettled.resolved_of_mem (Plan.self_mem_operators _) List.mem_cons_self
  have hexpr := hsettled.exprs _ (Plan.self_mem_operators _) e' List.mem_cons_self
  rw [Expr.eval_eq_evalConverting hvalues.scalars hexpr hresolved, hvalues.evalConverting]

/-- A filter on the inequality of an integer with a big integer, where the only cast is one that
refuses every integer. The predicate fails on every number, both with conversions and after its
analysis. -/
theorem eval_eq_evalConverting_of_analyze_overflow :
    let refuse : CastFunction := fun v ↦ .error (.overflow v .bigInteger)
    let casts := CastRegistry.ofList [⟨.integer, .bigInteger, refuse⟩]
    let a : Analyzer := ⟨⟨.standard, casts, "default", { maxIterations := 2 }⟩, Rule.standard⟩
    let events : Plan := .table "default" ⟨"events", [⟨"id", .integer, true, "events"⟩]⟩
    let id : Expr := .field ⟨0, "events", "id", .integer, true⟩
    let seven : Expr := .literal (.bigInteger 7) .bigInteger
    let isNotSeven (id : Expr) : Expr := .not (.comparison .eq id seven)
    let widened : Expr := .cast id .bigInteger (some ⟨.integer, .bigInteger, refuse⟩)
    (a.rules = Rule.standard ∧ (isNotSeven id).All (Expr.IsScalar a.casts) ∧
      a.analyze (.filter events (isNotSeven id)) = .ok (.filter events (isNotSeven widened))) ∧
      (isNotSeven id).evalConverting a.casts ⟨[.integer 7]⟩ =
        .error (.overflow (.integer 7) .bigInteger) ∧
      ∃ input' e', Plan.filter events (isNotSeven widened) = .filter input' e' ∧
        ∀ row : Row, e'.eval row = (isNotSeven id).evalConverting a.casts row := by
  intro refuse casts a events id seven isNotSeven widened
  have hscalars : (isNotSeven id).All (Expr.IsScalar a.casts) := by
    simp [isNotSeven, id, seven, Expr.All, Expr.subexprs, Expr.IsScalar]
  have hp : a.pass (.filter events (isNotSeven id)) = .filter events (isNotSeven widened) := rfl
  have hq : a.pass (.filter events (isNotSeven widened)) = .filter events (isNotSeven widened) := rfl
  have hanalyze := analyze_eq_ok_of_pass_eq hp hq rfl le_rfl
  exact ⟨⟨rfl, hscalars, hanalyze⟩, rfl,
    eval_eq_evalConverting_of_analyze rfl hscalars hanalyze⟩

end Analyzer

end LogicalQuery
