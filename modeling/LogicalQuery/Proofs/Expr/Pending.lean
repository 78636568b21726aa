import LogicalQuery.Proofs.Expr.Subexpression
import Mathlib.Algebra.Group.Action.Defs
import Mathlib.Algebra.Order.BigOperators.Group.List
import Mathlib.Algebra.Order.Ring.Nat

/-!
# What is left to do in an expression

Each node of an expression is given the number of steps that an analysis may still take at it: one
for a name, a star or a cast without a function, two for a comparison that may need a coercion
and for a bound cast that may lose its function. The sum over all nodes bounds the length of an
analysis, since a step that changes an expression lowers it.

This needs that a type, once known, stays: otherwise casts and comparisons around a changed
expression would become pending again. `Advances` joins the two, and it passes from the function
of a transformation to the transformation (`advances_transformUp`).
-/

namespace LogicalQuery

/-- If each element of a list stays or loses weight under a function, then so does the list. -/
theorem map_eq_or_sum_map_lt {α : Type} (weight : α → Nat) {g : α → α} {l : List α}
    (h : ∀ a ∈ l, g a = a ∨ weight (g a) < weight a) :
    l.map g = l ∨ ((l.map g).map weight).sum < (l.map weight).sum := by
  induction l with
  | nil => exact .inl rfl
  | cons a l ih =>
    rw [List.forall_mem_cons] at h
    simp only [List.map_cons, List.sum_cons]
    rcases h.1, ih h.2 with ⟨ha | ha, hl | hl⟩
    · exact .inl (by rw [ha, hl])
    · exact .inr (by rw [ha]; omega)
    · exact .inr (by rw [hl]; omega)
    · exact .inr (by omega)

namespace Expr

/-! ### Pending steps -/

/-- The number of steps that may be left at the root of an expression. -/
def pendingAtRoot : Expr → Nat
  | star | column _ _ | call _ _ | cast _ _ none => 1
  -- A cast whose function is for another type may lose it and find the right one.
  | cast e _ (some c) => if e.fits c then 0 else 2
  -- A coercion leaves a cast behind, which has one step left.
  | comparison _ l r => if l.dataType?.isSome ∧ l.dataType? = r.dataType? then 0 else 2
  | literal _ _ | field _ | renamed _ _ | not _ | aggregate _ _ => 0

/-- The number of steps that may be left in an expression. -/
def pending (e : Expr) : Nat := (e.subexprs.map pendingAtRoot).sum

/-- The number of steps that may be left in several expressions. -/
def pendingAll (es : List Expr) : Nat := (es.map pending).sum

theorem pending_eq (e : Expr) : e.pending = e.pendingAtRoot + pendingAll e.children := by
  have hmap : List.map List.sum (e.children.map fun c ↦ c.subexprs.map pendingAtRoot) =
      e.children.map pending := List.map_map
  rw [pending, subexprs_eq, List.map_cons, List.sum_cons, List.map_flatMap, List.flatMap_def,
    List.sum_flatten, hmap, pendingAll]

theorem pendingAtRoot_le (e : Expr) : e.pendingAtRoot ≤ 2 := by
  unfold pendingAtRoot
  split <;> (try split) <;> omega

/-- At most two steps are left at each node. -/
theorem pending_le (e : Expr) : e.pending ≤ 2 * e.size := by
  have h := List.sum_le_card_nsmul (e.subexprs.map pendingAtRoot) 2 fun n hn ↦ by
    obtain ⟨s, -, rfl⟩ := List.mem_map.1 hn
    exact s.pendingAtRoot_le
  rw [List.length_map, smul_eq_mul, Nat.mul_comm] at h
  exact h

/-! ### Types that stay -/

/-- The second expression has the type of the first one, if that is known. -/
def KeepsType (e e' : Expr) : Prop := ∀ t, e.dataType? = some t → e'.dataType? = some t

theorem KeepsType.refl (e : Expr) : e.KeepsType e := fun _ h ↦ h

theorem KeepsType.trans {e e' e'' : Expr} (h : e.KeepsType e') (h' : e'.KeepsType e'') :
    e.KeepsType e'' :=
  fun t ht ↦ h' t (h t ht)

theorem KeepsType.fits {e e' : Expr} {c : BoundCast} (h : e.KeepsType e') (hc : e.fits c = true) :
    e'.fits c = true := by
  rw [Expr.fits, beq_iff_eq] at hc ⊢
  exact h _ hc

variable {g : Expr → Expr}

theorem keepsType_mapChildren {e : Expr} (h : ∀ c ∈ e.children, c.KeepsType (g c)) :
    e.KeepsType (e.mapChildren g) := by
  intro t ht
  cases e with
  | literal _ _ | star | column _ _ | field _ | not _ | comparison _ _ _ | cast _ _ _
  | call _ _ => exact ht
  | renamed c _ => exact h c List.mem_cons_self t ht
  | aggregate a c =>
    cases a with
    | count => exact ht
    | first => exact h c List.mem_cons_self t ht

/-- A node has no more steps left over children that keep their types. -/
theorem pendingAtRoot_mapChildren_le {e : Expr} (h : ∀ c ∈ e.children, c.KeepsType (g c)) :
    (e.mapChildren g).pendingAtRoot ≤ e.pendingAtRoot := by
  cases e with
  | literal _ _ | star | column _ _ | field _ | renamed _ _ | not _ | call _ _ | aggregate _ _ =>
    exact le_rfl
  | comparison op l r =>
    have hl : l.KeepsType (g l) := h l (by simp [children])
    have hr : r.KeepsType (g r) := h r (by simp [children])
    -- Operands of one known type keep it, and other comparisons have two steps left already.
    by_cases hlr : l.dataType?.isSome ∧ l.dataType? = r.dataType?
    · obtain ⟨t, ht⟩ := Option.isSome_iff_exists.1 hlr.1
      have hr' := hr t (hlr.2.symm.trans ht)
      simp [mapChildren, pendingAtRoot, hl t ht, hr']
    · rw [show (comparison op l r).pendingAtRoot = 2 from if_neg hlr]
      exact pendingAtRoot_le _
  | cast c t b =>
    cases b with
    | none => exact le_rfl
    | some b =>
      cases hb : c.fits b with
      | false =>
        rw [show (cast c t (some b)).pendingAtRoot = 2 by simp [pendingAtRoot, hb]]
        exact pendingAtRoot_le _
      | true =>
        have hb' := (h c List.mem_cons_self).fits hb
        simp [mapChildren, recast, Option.filter, pendingAtRoot, hb']

/-- A node rebuilt over its own children is the same, unless it is a cast that loses its
function. -/
theorem mapChildren_eq_or_pendingAtRoot_lt {e : Expr} (h : e.children.map g = e.children) :
    e.mapChildren g = e ∨ (e.mapChildren g).pendingAtRoot < e.pendingAtRoot := by
  cases e with
  | literal _ _ | star | column _ _ | field _ => exact .inl rfl
  | renamed _ _ | not _ | comparison _ _ _ | call _ _ | aggregate _ _ =>
    simp_all [mapChildren, children]
  | cast c t b =>
    have hc : g c = c := by simpa [children] using h
    rw [mapChildren, hc]
    cases b with
    | none => exact .inl rfl
    | some b => cases hb : c.fits b <;> simp [recast, Option.filter, pendingAtRoot, hb]

/-! ### Advancing -/

/-- The second expression is the first one, or it has the type of the first one, as far as that is
known, and fewer steps are left in it. -/
def Advances (e e' : Expr) : Prop := e' = e ∨ e.KeepsType e' ∧ e'.pending < e.pending

theorem Advances.keepsType {e e' : Expr} (h : e.Advances e') : e.KeepsType e' := by
  rcases h with rfl | ⟨h, -⟩
  · exact .refl _
  · exact h

theorem Advances.pending_le {e e' : Expr} (h : e.Advances e') : e'.pending ≤ e.pending := by
  rcases h with rfl | ⟨-, h⟩
  · exact le_rfl
  · exact h.le

theorem Advances.trans {e e' e'' : Expr} (h : e.Advances e') (h' : e'.Advances e'') :
    e.Advances e'' := by
  rcases h with rfl | ⟨ht, hlt⟩
  · exact h'
  · exact .inr ⟨ht.trans h'.keepsType, h'.pending_le.trans_lt hlt⟩

/-- Expressions that advance to each other are the same. -/
theorem Advances.antisymm {e e' : Expr} (h : e.Advances e') (h' : e'.Advances e) : e' = e := by
  rcases h with h | ⟨-, hlt⟩
  · exact h
  · exact absurd h'.pending_le (not_le.2 hlt)

theorem map_eq_or_pendingAll_lt {es : List Expr} (h : ∀ e ∈ es, e.Advances (g e)) :
    es.map g = es ∨ pendingAll (es.map g) < pendingAll es :=
  map_eq_or_sum_map_lt pending fun e he ↦ (h e he).imp_right And.right

/-- A node advances if all its children do. -/
theorem advances_mapChildren {e : Expr} (h : ∀ c ∈ e.children, c.Advances (g c)) :
    e.Advances (e.mapChildren g) := by
  have htypes := fun c hc ↦ (h c hc).keepsType
  have hroot := pendingAtRoot_mapChildren_le htypes
  rw [Advances, pending_eq, pending_eq, children_mapChildren]
  rcases map_eq_or_pendingAll_lt h with heq | hlt
  · rcases mapChildren_eq_or_pendingAtRoot_lt heq with heq' | hlt
    · exact .inl heq'
    · exact .inr ⟨keepsType_mapChildren htypes, by rw [heq]; omega⟩
  · exact .inr ⟨keepsType_mapChildren htypes, by omega⟩

variable {f : Expr → Expr}

/-- **Transformations advance.** If a function advances every expression, then so does the
transformation by the function. -/
theorem advances_transformUp (hf : ∀ e, Advances e (f e)) (e : Expr) :
    e.Advances (e.transformUp f) :=
  transformUp_rel (R := Advances) .trans advances_mapChildren hf e

/-- Where a transformation changes nothing, its function changes no subexpression. -/
theorem all_eq_of_transformUp_eq (hf : ∀ e, Advances e (f e)) {e : Expr}
    (h : e.transformUp f = e) : e.All fun s ↦ f s = s ∧ s.mapChildren (transformUp f) = s := by
  induction e using children_induction with
  | node e ih =>
    -- The rebuilt node lies between the node and its image, which are the same.
    have hmap := advances_mapChildren (e := e) fun c _ ↦ advances_transformUp hf c
    have hroot := hf (e.mapChildren (transformUp f))
    rw [transformUp_eq] at h
    rw [h] at hroot
    have heq := hmap.antisymm hroot
    rw [heq] at h
    exact all_iff.2 ⟨⟨h, heq⟩, fun c hc ↦ ih c hc ((mapChildren_eq_self_iff.1 heq).2 c hc)⟩

end Expr

end LogicalQuery
