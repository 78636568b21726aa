import LogicalQuery.Proofs.Analysis.Step
import LogicalQuery.Proofs.Plan.Pending

/-!
# Every rule makes progress

Each rule of a standard analysis advances every plan: it changes nothing, or it lowers the number
of steps that may be left. So does a pass, and a pass that changes nothing consists of rules that
change nothing.
-/

namespace LogicalQuery

/-! ### Expressions -/

namespace Expr

theorem pending_bindAll (columns : List Column) : pendingAll (Column.bindAll columns) = 0 := by
  simp [Column.bindAll, pendingAll, List.map_map, Function.comp_def, Column.bind, pending_eq,
    pendingAtRoot, children]

/-- Stars are expanded to columns, at which nothing is left to do. -/
theorem expandStars_eq_or_pendingAll_lt (columns : List Column) (es : List Expr) :
    expandStars columns es = es ∨ pendingAll (expandStars columns es) < pendingAll es := by
  have hcons (e : Expr) (es : List Expr) : pendingAll (e :: es) = e.pending + pendingAll es := rfl
  induction es with
  | nil => exact .inl rfl
  | cons e es ih =>
    rw [expandStars, List.flatMap_cons, ← expandStars]
    cases he : e.isStar with
    | true =>
      have hstar : e.pending = 1 := by
        cases e <;> simp_all [isStar, pending_eq, pendingAtRoot, children, pendingAll]
      -- The columns in place of the star add nothing to what the other expressions have left.
      have happend : pendingAll (Column.bindAll columns ++ expandStars columns es) =
          pendingAll (expandStars columns es) := by
        have hzero := pending_bindAll columns
        rw [pendingAll] at hzero ⊢
        rw [List.map_append, List.sum_append, hzero, Nat.zero_add, pendingAll]
      refine .inr ?_
      rw [if_pos rfl, happend, hcons, hstar]
      rcases ih with heq | hlt
      · rw [heq]; omega
      · omega
    | false =>
      rw [if_neg Bool.false_ne_true, List.singleton_append]
      rcases ih with heq | hlt
      · exact .inl (by rw [heq])
      · exact .inr (by rw [hcons, hcons]; omega)

theorem advances_bindColumn (columns : List Column) (e : Expr) :
    e.Advances (e.bindColumn columns) := by
  rcases bindColumn_cases columns e with h | ⟨table, name, c, index, rfl, -, -, h⟩
  · exact .inl h
  · rw [h]
    refine .inr ⟨fun _ ht ↦ absurd ht (by simp), ?_⟩
    show (c.bind index).pending < 1
    exact Nat.lt_succ_of_le (Nat.le_of_eq rfl)

theorem advances_bindCall {catalog : Catalog} (hc : catalog.OnlyAggregates) (e : Expr) :
    e.Advances (e.bindCall catalog) := by
  rcases bindCall_cases hc e with h | ⟨name, arg, g, rfl, -, h⟩
  · exact .inl h
  · rw [h]
    refine .inr ⟨fun _ ht ↦ absurd ht (by simp), ?_⟩
    rw [pending_eq, pending_eq (call _ _)]
    show 0 + pendingAll [arg] < 1 + pendingAll [arg]
    omega

/-- A coercion adds a cast, which has one step less left than the comparison had before. -/
theorem advances_coerceOperands (e : Expr) : e.Advances e.coerceOperands := by
  rcases coerceOperands_cases e with h | ⟨op, l, r, s, t, rfl, hs, ht, hst, h⟩
  · exact .inl h
  · have hbefore : (comparison op l r).pending = 2 + (l.pending + r.pending) := by
      simp [pending_eq (comparison op l r), pendingAtRoot, hs, ht, hst, pendingAll, children]
    have hcast (e : Expr) (t : DataType) : (cast e t none).pending = 1 + e.pending := by
      simp [pending_eq (cast e t none), pendingAtRoot, pendingAll, children]
    rcases h with ⟨-, h⟩ | ⟨-, h⟩
    · have hafter : (comparison op (cast l t none) r).pending = 1 + l.pending + r.pending := by
        simp [pending_eq (comparison _ _ _), pendingAtRoot, ht, pendingAll, children, hcast]
      rw [h]
      exact .inr ⟨fun _ hbool ↦ hbool, by omega⟩
    · have hafter : (comparison op l (cast r s none)).pending = l.pending + (1 + r.pending) := by
        simp [pending_eq (comparison _ _ _), pendingAtRoot, hs, pendingAll, children, hcast]
      rw [h]
      exact .inr ⟨fun _ hbool ↦ hbool, by omega⟩

theorem advances_bindCast (casts : CastRegistry) (e : Expr) : e.Advances (e.bindCast casts) := by
  rcases bindCast_cases casts e with h | ⟨child, source, target, function, rfl, hs, -, h⟩
  · exact .inl h
  · have hfits : child.fits ⟨source, target, function⟩ = true := by simp [fits, hs]
    rw [h]
    refine .inr ⟨fun _ htarget ↦ htarget, ?_⟩
    rw [pending_eq, pending_eq (cast child target none)]
    simp [pendingAtRoot, hfits, children]

end Expr

/-! ### Plans -/

namespace Plan

theorem advances_bindTable (ctx : Context) (p : Plan) : p.Advances (p.bindTable ctx) := by
  rcases bindTable_cases ctx p with h | ⟨database, name, schema, rfl, -, h⟩
  · exact .inl h
  · rw [h]
    exact .inr Nat.zero_lt_one

theorem advances_expandStars (p : Plan) : p.Advances p.expandStars := by
  rcases expandStars_cases p with h | ⟨input, es, columns, rfl, -, h⟩
  · exact .inl h
  · rw [h]
    rcases Expr.expandStars_eq_or_pendingAll_lt columns es with heq | hlt
    · exact .inl (by rw [heq])
    · refine .inr ?_
      rw [pending_eq, pending_eq (project input es)]
      exact Nat.add_lt_add_right hlt _

theorem advances_bindColumns (p : Plan) : p.Advances p.bindColumns := by
  rcases bindColumns_cases p with h | ⟨columns, -, h⟩
  · exact .inl h
  · rw [h]
    exact advances_transformExpressions (Expr.advances_bindColumn columns) p

end Plan

/-! ### Rules and passes -/

/-- The rule advances every plan. -/
def Rule.Advances (ctx : Context) (r : Rule) : Prop := ∀ p : Plan, p.Advances (r.apply ctx p)

/-- **The standard rules advance every plan.** -/
theorem Rule.advances_of_mem_standard {ctx : Context} (hc : ctx.catalog.OnlyAggregates) {r : Rule}
    (hr : r ∈ Rule.standard) : r.Advances ctx := by
  intro p
  rcases mem_standard_iff.1 hr with rfl | rfl | rfl | rfl | rfl | rfl
  · exact Plan.advances_transformUp (Plan.advances_bindTable ctx) p
  · exact Plan.advances_transformUp Plan.advances_expandStars p
  · exact Plan.advances_transformUp Plan.advances_bindColumns p
  · exact Plan.advances_transformExpressionsUp (Expr.advances_bindCall hc) p
  · exact Plan.advances_transformExpressionsUp Expr.advances_coerceOperands p
  · exact Plan.advances_transformExpressionsUp (Expr.advances_bindCast ctx.casts) p

/-- Rules that advance, one after the other, advance. -/
theorem Rule.advances_foldl {ctx : Context} {rules : List Rule}
    (h : ∀ r ∈ rules, r.Advances ctx) (p : Plan) :
    p.Advances (rules.foldl (fun p r ↦ r.apply ctx p) p) := by
  induction rules generalizing p with
  | nil => exact .refl p
  | cons r rules ih =>
    rw [List.forall_mem_cons] at h
    exact (h.1 p).trans (ih h.2 _)

/-- If rules that advance change nothing, one after the other, then none of them does. -/
theorem Rule.apply_eq_of_foldl_eq {ctx : Context} {rules : List Rule}
    (h : ∀ r ∈ rules, r.Advances ctx) {p : Plan}
    (hp : rules.foldl (fun p r ↦ r.apply ctx p) p = p) {r : Rule} (hr : r ∈ rules) :
    r.apply ctx p = p := by
  induction rules with
  | nil => exact absurd hr List.not_mem_nil
  | cons r' rules ih =>
    rw [List.forall_mem_cons] at h
    have hrest := Rule.advances_foldl h.2 (r'.apply ctx p)
    rw [← List.foldl_cons, hp] at hrest
    have hfirst := (h.1 p).antisymm hrest
    rcases List.mem_cons.1 hr with rfl | hr
    · exact hfirst
    · rw [List.foldl_cons, hfirst] at hp
      exact ih h.2 hp hr

namespace Analyzer

variable {a : Analyzer}

/-- A pass of the standard rules advances every plan. -/
theorem advances_pass (hrules : a.rules = Rule.standard) (hc : a.catalog.OnlyAggregates)
    (p : Plan) : p.Advances (a.pass p) :=
  Rule.advances_foldl (fun _ hr ↦ Rule.advances_of_mem_standard hc (hrules ▸ hr)) p

/-- Where a pass changes nothing, no rule changes anything. -/
theorem apply_eq_of_pass_eq (hrules : a.rules = Rule.standard) (hc : a.catalog.OnlyAggregates)
    {p : Plan} (h : a.pass p = p) {r : Rule} (hr : r ∈ Rule.standard) :
    r.apply a.toContext p = p :=
  Rule.apply_eq_of_foldl_eq (fun _ hr ↦ Rule.advances_of_mem_standard hc (hrules ▸ hr)) h
    (hrules ▸ hr)

end Analyzer

end LogicalQuery
