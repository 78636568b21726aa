import LogicalQuery.Proofs.Analysis.Composition

/-!
# Rules that are applied twice

Applied a second time, a rule of a standard analysis changes nothing (`Rule.apply_apply`), even in
plans that come with bound casts. This is not plain: a rule judges a node by the types of its
children and by whether they are resolved, and rebuilding a cast may take away its binding in the
middle of the same walk. But a walk has rebuilt the children of a node before it comes to the node,
and so what it judges by is what a second walk finds there. A transformation is therefore
idempotent if it leaves alone what its function makes of one node over transformed children
(`Expr.transformUp_transformUp`).
-/

namespace LogicalQuery

/-! ### Transformations of expressions -/

namespace Expr

/-- A node over children that are transformed already is rebuilt as it is. In particular, a cast
over such a child has no binding left to lose. -/
theorem mapChildren_mapChildren_self {g : Expr → Expr} {e : Expr}
    (h : ∀ c ∈ e.children, g (g c) = g c) :
    (e.mapChildren g).mapChildren g = e.mapChildren g := by
  cases e with
  | literal _ _ | star | column _ _ | field _ => rfl
  | renamed c _ | not c | aggregate _ c =>
    rw [mapChildren, mapChildren, h c List.mem_cons_self]
  | comparison _ l r =>
    rw [mapChildren, mapChildren, h l (by simp [children]), h r (by simp [children])]
  | cast c t b =>
    rw [mapChildren, recast, mapChildren, recast, h c List.mem_cons_self, Option.filter_filter]
    simp only [Bool.and_self]
  | call n es =>
    rw [mapChildren, mapChildren, List.map_map]
    exact congrArg (call n) (List.map_congr_left h)

/-- **A transformation is idempotent** if its function leaves every node over transformed children
as it is, or makes an expression of it that the transformation leaves as it is. -/
theorem transformUp_transformUp {f : Expr → Expr}
    (hf : ∀ e, e.mapChildren (transformUp f) = e → f e = e ∨ (f e).transformUp f = f e) (e : Expr) :
    (e.transformUp f).transformUp f = e.transformUp f := by
  induction e using children_induction with
  | node e ih =>
    have hnode := mapChildren_mapChildren_self ih
    rw [transformUp_eq f e]
    rcases hf _ hnode with heq | heq
    · rw [heq, transformUp_eq, hnode, heq]
    · exact heq

/-! ### The functions of the rules -/

theorem transformUp_bindColumn_idem (columns : List Column) (e : Expr) :
    (e.transformUp (bindColumn columns)).transformUp (bindColumn columns) =
      e.transformUp (bindColumn columns) := by
  refine transformUp_transformUp (fun e _ ↦ (bindColumn_cases columns e).imp_right ?_) e
  rintro ⟨_, _, c, index, rfl, -, -, hbind⟩
  rw [hbind]
  rfl

/-- The aggregate that a call stands for has the argument of the call, which is transformed
already. -/
theorem transformUp_bindCall_idem {catalog : Catalog} (hc : catalog.OnlyAggregates) (e : Expr) :
    (e.transformUp (bindCall catalog)).transformUp (bindCall catalog) =
      e.transformUp (bindCall catalog) := by
  refine transformUp_transformUp (fun e h ↦ (bindCall_cases hc e).imp_right ?_) e
  rintro ⟨name, arg, g, rfl, -, hbind⟩
  have harg := (mapChildren_eq_self_iff.1 h).2 arg List.mem_cons_self
  rw [hbind, transformUp_eq, mapChildren, harg]
  rfl

/-- The cast around an operand is not bound, and the comparison has operands of one type from then
on. -/
theorem transformUp_coerceOperands_idem (e : Expr) :
    (e.transformUp coerceOperands).transformUp coerceOperands = e.transformUp coerceOperands := by
  refine transformUp_transformUp (fun e h ↦ (coerceOperands_cases e).imp_right ?_) e
  rintro ⟨op, l, r, s, t, rfl, hs, ht, -, hcoerce⟩
  have hl := (mapChildren_eq_self_iff.1 h).2 l (by simp [children])
  have hr := (mapChildren_eq_self_iff.1 h).2 r (by simp [children])
  have hcast {e : Expr} (he : e.transformUp coerceOperands = e) (t : DataType) :
      (cast e t none).transformUp coerceOperands = cast e t none := by
    rw [transformUp_eq, mapChildren, he]
    rfl
  rcases hcoerce with ⟨-, hcoerce⟩ | ⟨-, hcoerce⟩
  · rw [hcoerce, transformUp_eq, mapChildren, hcast hl, hr]
    exact IsSettled.coerceOperands_eq ht.symm
  · rw [hcoerce, transformUp_eq, mapChildren, hl, hcast hr]
    exact IsSettled.coerceOperands_eq hs

/-- The binding of a cast is for the type of its child, and so the cast keeps it. -/
theorem transformUp_bindCast_idem (casts : CastRegistry) (e : Expr) :
    (e.transformUp (bindCast casts)).transformUp (bindCast casts) =
      e.transformUp (bindCast casts) := by
  refine transformUp_transformUp (fun e h ↦ (bindCast_cases casts e).imp_right ?_) e
  rintro ⟨child, source, target, function, rfl, hs, -, hbind⟩
  have hchild := (mapChildren_eq_self_iff.1 h).2 child List.mem_cons_self
  have hfits : child.fits ⟨source, target, function⟩ = true := beq_iff_eq.2 hs
  rw [hbind, transformUp_eq, mapChildren, hchild, recast, Option.filter_some_pos hfits]
  rfl

/-- Expanded stars leave no star behind. -/
theorem expandStars_expandStars (columns : List Column) (es : List Expr) :
    expandStars columns (expandStars columns es) = expandStars columns es := by
  refine expandStars_eq_self fun e he ↦ ?_
  obtain ⟨e', -, hmem⟩ := List.mem_flatMap.1 he
  cases hstar : e'.isStar with
  | false =>
    rw [hstar, if_neg Bool.false_ne_true] at hmem
    exact List.mem_singleton.1 hmem ▸ hstar
  | true =>
    rw [hstar, if_pos rfl] at hmem
    obtain ⟨_, -, rfl⟩ := List.mem_map.1 hmem
    rfl

end Expr

/-! ### Transformations of plans -/

namespace Plan

/-- **A transformation of plans is idempotent**, if its function keeps inputs and is idempotent
itself. -/
theorem transformUp_transformUp {f : Plan → Plan} (hf : ∀ p, (f p).children = p.children)
    (hidem : ∀ p, f (f p) = f p) (p : Plan) :
    (p.transformUp f).transformUp f = p.transformUp f := by
  induction p using children_induction with
  | node p ih =>
    have hchildren : (p.transformUp f).children.map (transformUp f) =
        (p.transformUp f).children := by
      rw [children_transformUp hf, List.map_map]
      exact List.map_congr_left ih
    rw [transformUp_eq f (p.transformUp f), mapChildren_eq_self hchildren, transformUp_eq, hidem]

theorem transformExpressions_idem {g : Expr → Expr}
    (hg : ∀ e : Expr, (e.transformUp g).transformUp g = e.transformUp g) (p : Plan) :
    (p.transformExpressions g).transformExpressions g = p.transformExpressions g := by
  rw [transformExpressions, transformExpressions, mapExpressions_mapExpressions]
  simp only [hg]

theorem transformExpressionsUp_idem {g : Expr → Expr}
    (hg : ∀ e : Expr, (e.transformUp g).transformUp g = e.transformUp g) (p : Plan) :
    (p.transformExpressionsUp g).transformExpressionsUp g = p.transformExpressionsUp g :=
  transformUp_transformUp (children_mapExpressions _) (transformExpressions_idem hg) p

theorem bindTable_bindTable (ctx : Context) (p : Plan) :
    (p.bindTable ctx).bindTable ctx = p.bindTable ctx := by
  rcases bindTable_cases ctx p with h | ⟨_, _, _, rfl, -, h⟩
  · rw [h, h]
  · rw [h]
    rfl

theorem expandStars_expandStars (p : Plan) : p.expandStars.expandStars = p.expandStars := by
  rcases expandStars_cases p with h | ⟨input, es, columns, rfl, hinput, h⟩
  · rw [h, h]
  · rw [h, expandStars, hinput]
    exact congrArg (project input) (Expr.expandStars_expandStars columns es)

/-- The columns of the inputs are the same after columns are bound, since the inputs are. -/
theorem bindColumns_bindColumns (p : Plan) : p.bindColumns.bindColumns = p.bindColumns := by
  rcases bindColumns_cases p with h | ⟨columns, hinput, h⟩
  · rw [h, h]
  · have hinput' := (inputSchema?_congr (children_bindColumns p)).trans hinput
    rw [bindColumns, hinput', h]
    exact transformExpressions_idem (Expr.transformUp_bindColumn_idem columns) p

end Plan

/-! ### Rules -/

/-- **Standard rules are idempotent**, whatever the casts, the database and the plan, if the
functions of the catalog are the aggregates. The functions matter to calls only: a constructor that
makes a call of a call would be asked again. -/
theorem Rule.apply_apply {ctx : Context} (hc : ctx.catalog.OnlyAggregates) {r : Rule}
    (hr : r ∈ Rule.standard) (p : Plan) : r.apply ctx (r.apply ctx p) = r.apply ctx p := by
  rcases mem_standard_iff.1 hr with rfl | rfl | rfl | rfl | rfl | rfl
  · exact Plan.transformUp_transformUp (Plan.children_bindTable ctx)
      (Plan.bindTable_bindTable ctx) p
  · exact Plan.transformUp_transformUp Plan.children_expandStars Plan.expandStars_expandStars p
  · exact Plan.transformUp_transformUp Plan.children_bindColumns Plan.bindColumns_bindColumns p
  · exact Plan.transformExpressionsUp_idem (Expr.transformUp_bindCall_idem hc) p
  · exact Plan.transformExpressionsUp_idem Expr.transformUp_coerceOperands_idem p
  · exact Plan.transformExpressionsUp_idem (Expr.transformUp_bindCast_idem ctx.casts) p

/-- A comparison of an integer with a cast that is bound for another type. The operands are resolved
and differ in their types, but the binding is gone before the walk comes to the comparison, which is
not coerced then. Neither is it in a second walk. -/
theorem Rule.apply_apply_misfit :
    let ctx := (Analyzer.ofCatalog .standard {}).toContext
    let events : Plan := .table "default" ⟨"events", [⟨"id", .integer, false, "events"⟩]⟩
    let id : Expr := .field ⟨0, "events", "id", .integer, false⟩
    let seven (bound : Option BoundCast) : Expr :=
      .cast (.literal (.string "7") .string) .bigInteger bound
    let p : Plan := .filter events (.comparison .eq id (seven (some ⟨.integer, .bigInteger, .ok⟩)))
    let q : Plan := .filter events (.comparison .eq id (seven none))
    ctx.catalog.OnlyAggregates ∧ Rule.coerceComparisons ∈ Rule.standard ∧ p.resolved = true ∧
      Rule.coerceComparisons.apply ctx p = q ∧ Rule.coerceComparisons.apply ctx q = q := by
  intro ctx events id seven p q
  have hc : ctx.catalog.OnlyAggregates := Catalog.standard_onlyAggregates
  have hmem : Rule.coerceComparisons ∈ Rule.standard := by simp [Rule.standard]
  have hp : Rule.coerceComparisons.apply ctx p = q := rfl
  have htwice := Rule.apply_apply hc hmem p
  rw [hp] at htwice
  exact ⟨hc, hmem, rfl, hp, htwice⟩

end LogicalQuery
