import LogicalQuery.Analysis.Coercion
import LogicalQuery.Proofs.Expr.Shape

/-!
# Coerced expressions

An analysis puts casts around operands of comparisons, some passes later than it binds the names in
them. The *coerced* form of an expression has all of these casts, and no cast in it is bound. It is
the same for all forms that an expression takes during an analysis, once its names are bound
(`Elaborates`). The forms have different names, as casts show in them, unless no comparison with a
widened operand is left in sight (`name_coerced`).
-/

namespace LogicalQuery.Expr

/-! ### Types -/

theorem dataType?_mapChildren {g : Expr → Expr} {e : Expr}
    (h : ∀ c ∈ e.children, (g c).dataType? = c.dataType?) :
    (e.mapChildren g).dataType? = e.dataType? := by
  cases e with
  | renamed c _ => exact h c List.mem_cons_self
  | aggregate a c =>
    cases a with
    | count => rfl
    | first => exact h c List.mem_cons_self
  | _ => rfl

/-- A transformation keeps types, if its function does. -/
theorem dataType?_transformUp {f : Expr → Expr} (hf : ∀ e, (f e).dataType? = e.dataType?)
    (e : Expr) : (e.transformUp f).dataType? = e.dataType? :=
  transformUp_rel (R := fun e e' ↦ e'.dataType? = e.dataType?) (fun h h' ↦ h'.trans h)
    dataType?_mapChildren hf e

/-! ### Unbound casts -/

/-- The node with its cast not bound. -/
def unbindNode : Expr → Expr
  | cast e t _ => cast e t none
  | e => e

/-- The expression with no cast in it bound. -/
def unbound (e : Expr) : Expr := e.transformUp unbindNode

theorem unbound_eq (e : Expr) : e.unbound = (e.mapChildren unbound).unbindNode :=
  transformUp_eq unbindNode e

/-- Bindings do not show in types. -/
theorem dataType?_unbound (e : Expr) : e.unbound.dataType? = e.dataType? := by
  refine dataType?_transformUp (fun e ↦ ?_) e
  cases e <;> rfl

/-! ### Coercions -/

/-- The node with its cast not bound, or with the operand of lower rank cast to the type of the
other one. -/
def coerceNode : Expr → Expr
  | e@(comparison op l r) =>
    match l.dataType?, r.dataType? with
    | some s, some t =>
      comparison op (l.coerce s (DataType.common s t)) (r.coerce t (DataType.common s t))
    | _, _ => e
  | e => e.unbindNode

/-- The expression with all operands of comparisons coerced, and no cast in it bound. -/
def coerced (e : Expr) : Expr := e.transformUp coerceNode

theorem coerced_eq (e : Expr) : e.coerced = (e.mapChildren coerced).coerceNode :=
  transformUp_eq coerceNode e

theorem coerced_cast (e : Expr) (t : DataType) (b : Option BoundCast) :
    (cast e t b).coerced = cast e.coerced t none := coerced_eq _

theorem coerce_self (e : Expr) (t : DataType) : e.coerce t t = e := if_pos rfl

theorem coerceNode_comparison {op : ComparisonOp} {l r : Expr} {s t : DataType}
    (hl : l.dataType? = some s) (hr : r.dataType? = some t) :
    (comparison op l r).coerceNode =
      comparison op (l.coerce s (DataType.common s t)) (r.coerce t (DataType.common s t)) := by
  rw [coerceNode, hl, hr]

/-- A comparison of operands of one type needs no coercion. -/
theorem coerceNode_comparison_self {op : ComparisonOp} {l r : Expr}
    (h : l.dataType? = r.dataType?) : (comparison op l r).coerceNode = comparison op l r := by
  rw [coerceNode, h]
  cases r.dataType? with
  | none => rfl
  | some t =>
    dsimp only
    rw [DataType.common_self, coerce_self, coerce_self]

/-- Coercions do not change types. -/
theorem dataType?_coerced (e : Expr) : e.coerced.dataType? = e.dataType? := by
  refine dataType?_transformUp (fun e ↦ ?_) e
  cases e with
  | comparison op l r =>
    rw [coerceNode]
    split
    next => rfl
    next => rfl
  | _ => rfl

theorem coerced_comparison {op : ComparisonOp} {l r : Expr} {s t : DataType}
    (hl : l.dataType? = some s) (hr : r.dataType? = some t) :
    (comparison op l r).coerced = comparison op (l.coerced.coerce s (DataType.common s t))
      (r.coerced.coerce t (DataType.common s t)) := by
  rw [coerced_eq, mapChildren,
    coerceNode_comparison ((dataType?_coerced l).trans hl) ((dataType?_coerced r).trans hr)]

/-- The coerced form of a node depends on those of its children alone. -/
theorem coerced_mapChildren {g : Expr → Expr} {e : Expr}
    (h : ∀ c ∈ e.children, (g c).coerced = c.coerced) : (e.mapChildren g).coerced = e.coerced := by
  rw [coerced_eq, coerced_eq]
  cases e with
  | literal _ _ | star | column _ _ | field _ => rfl
  | renamed c _ | not c | aggregate _ c =>
    rw [mapChildren, mapChildren, mapChildren, h c List.mem_cons_self]
  | comparison _ l r =>
    rw [mapChildren, mapChildren, mapChildren, h l (by simp [children]), h r (by simp [children])]
  | cast c t b => exact congrArg (cast · t none) (h c List.mem_cons_self)
  | call n es =>
    have hes := List.map_congr_left h
    rw [mapChildren, mapChildren, mapChildren, List.map_map]
    exact congrArg (fun es ↦ (call n es).coerceNode) hes

/-! ### Names -/

/-- Whether the expression is a cast to a type of higher rank than that of its child. -/
def widens : Expr → Bool
  | cast e t _ => e.dataType?.any fun s ↦ s.rank < t.rank
  | _ => false

/-- Whether a comparison with a widened operand shows in the name of an expression without
calls. It does not show through another name. -/
def showsWidening : Expr → Bool
  | literal _ _ | star | column _ _ | field _ | renamed _ _ | call _ _ => false
  | not e | cast e _ _ | aggregate _ e => e.showsWidening
  | comparison _ l r => l.widens || r.widens || l.showsWidening || r.showsWidening

theorem widens_unbound (e : Expr) : e.unbound.widens = e.widens := by
  cases e with
  | cast c t _ =>
    show (c.unbound.dataType?.any fun s ↦ s.rank < t.rank) = _
    rw [dataType?_unbound]
    rfl
  | _ => rfl

/-- Bindings do not show in names. -/
theorem name_unbound {e : Expr} (h : e.named = true) : e.unbound.name = e.name := by
  refine named_induction rfl (fun e h ih ↦ ?_) h
  rw [unbound_eq]
  cases e with
  | literal _ _ | field _ | renamed _ _ => rfl
  | star | column _ _ | call _ _ => exact nomatch h
  | not c | cast c _ _ | aggregate _ c =>
    have hc := ih c List.mem_cons_self
    simp only [mapChildren, recast, unbindNode, name, hc]
  | comparison _ l r =>
    have hl := ih l (by simp [children])
    have hr := ih r (by simp [children])
    simp only [mapChildren, unbindNode, name, hl, hr]

theorem showsWidening_unbound {e : Expr} (h : e.named = true) :
    e.unbound.showsWidening = e.showsWidening := by
  refine named_induction rfl (fun e h ih ↦ ?_) h
  rw [unbound_eq]
  cases e with
  | literal _ _ | field _ | renamed _ _ => rfl
  | star | column _ _ | call _ _ => exact nomatch h
  | not c | cast c _ _ | aggregate _ c => exact ih c List.mem_cons_self
  | comparison _ l r =>
    have hl := ih l (by simp [children])
    have hr := ih r (by simp [children])
    simp only [mapChildren, unbindNode, showsWidening, widens_unbound, hl, hr]

/-- **Coercions that do not show leave the name.** An expression has the name of its coerced form, if
no comparison with a widened operand shows in that. -/
theorem name_coerced {e : Expr} (h : e.named = true) (hshows : e.coerced.showsWidening = false) :
    e.coerced.name = e.name := by
  revert hshows
  refine named_induction (fun _ ↦ rfl) (fun e h ih hshows ↦ ?_) h
  cases e with
  | literal _ _ | field _ | renamed _ _ => rfl
  | star | column _ _ | call _ _ => exact nomatch h
  | not c | cast c _ _ | aggregate _ c =>
    rw [coerced_eq] at hshows ⊢
    have hc := ih c List.mem_cons_self hshows
    simp only [mapChildren, recast, coerceNode, unbindNode, name, hc]
  | comparison op l r =>
    rw [named, Bool.and_eq_true] at h
    obtain ⟨s, hs⟩ := exists_dataType?_of_named h.1
    obtain ⟨t, ht⟩ := exists_dataType?_of_named h.2
    have hs' := (dataType?_coerced l).trans hs
    have ht' := (dataType?_coerced r).trans ht
    rw [coerced_comparison hs ht] at hshows ⊢
    by_cases hst : s = t
    · subst hst
      simp only [DataType.common_self, coerce_self, showsWidening, Bool.or_eq_false_iff]
        at hshows ⊢
      obtain ⟨⟨-, hl⟩, hr⟩ := hshows
      rw [name, name, ih l (by simp [children]) hl, ih r (by simp [children]) hr]
    · -- The operand of lower rank is widened now.
      exfalso
      rcases DataType.common_eq_or s t with hcommon | hcommon
      · have hrank := DataType.rank_lt_of_common_eq (DataType.common_comm t s ▸ hcommon)
          (Ne.symm hst)
        simp [hcommon, coerce, Ne.symm hst, showsWidening, widens, ht', hrank] at hshows
      · have hrank := DataType.rank_lt_of_common_eq hcommon hst
        simp [hcommon, coerce, hst, showsWidening, widens, hs', hrank] at hshows

/-! ### Elaboration -/

/-- The second expression refines the first one, and has the same coerced form if the first one is
named. -/
structure Elaborates (e e' : Expr) : Prop extends Refines e e' where
  coerced : e.named = true → e'.coerced = e.coerced

namespace Elaborates

theorem refl (e : Expr) : e.Elaborates e := ⟨.refl e, fun _ ↦ rfl⟩

theorem trans {e e' e'' : Expr} (h : e.Elaborates e') (h' : e'.Elaborates e'') :
    e.Elaborates e'' where
  toRefines := h.toRefines.trans h'.toRefines
  coerced he := (h'.coerced (h.named he)).trans (h.coerced he)

/-- Anything elaborates an expression that is neither named nor the star. -/
theorem of_not_named {e e' : Expr} (hnamed : e.named = false) (hstar : e.isStar = false) :
    e.Elaborates e' where
  toRefines := .of_not_named hnamed hstar
  coerced h := absurd (hnamed.symm.trans h) Bool.false_ne_true

end Elaborates

variable {f g : Expr → Expr}

/-- A node over elaborated children elaborates the node. -/
theorem elaborates_mapChildren {e : Expr} (h : ∀ c ∈ e.children, c.Elaborates (g c)) :
    e.Elaborates (e.mapChildren g) where
  toRefines := refines_mapChildren fun c hc ↦ (h c hc).toRefines
  coerced he := by
    refine coerced_mapChildren fun c hc ↦ ?_
    rcases named_or_isStar_of_mem_children he hc with hnamed | rfl
    · exact (h c hc).coerced hnamed
    · -- What refines the star is the star.
      have hstar := (h star hc).isStar rfl
      cases heq : g star with
      | star => rfl
      | _ => exact nomatch (heq ▸ hstar : _)

/-- **Transformations elaborate**, if their functions do. -/
theorem elaborates_transformUp (hf : ∀ e, Elaborates e (f e)) (e : Expr) :
    e.Elaborates (e.transformUp f) :=
  transformUp_rel (R := Elaborates) .trans elaborates_mapChildren hf e

end LogicalQuery.Expr
