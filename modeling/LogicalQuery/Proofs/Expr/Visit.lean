import LogicalQuery.Proofs.Expr.Subexpression
import Mathlib.Data.List.Perm.Basic

/-!
# The nodes that a transformation visits

A transformation hands each node of an expression to its function once, children from left to right
before their parent (`postorder`). If the function gives back what it gets, then the transformation
gives back the expression without the bindings that are not for the type of the child of their cast
(`withoutMisfits`). Types do not depend on bindings (`dataType?_withoutMisfits`), so that no other
binding goes with them. The main statement holds for every effect of the function
(`transformUpM_visiting`).
-/

namespace LogicalQuery

section

variable {m : Type → Type} [Monad m]

/-- The function that gives back an expression after an effect. -/
def visiting (visit : Expr → m Unit) (e : Expr) : m Expr := do
  visit e
  return e

/-- A list is mapped through the visits of its elements, one element after the other, if each
element is mapped through visits. -/
theorem mapM_eq_of_visits [LawfulMonad m] {α β γ : Type} {f : α → m β} {visit : γ → m Unit}
    {visits : α → List γ} {g : α → β} {l : List α}
    (h : ∀ a ∈ l, f a = do
      (visits a).forM visit
      return g a) :
    l.mapM f = do
      (l.flatMap visits).forM visit
      return l.map g := by
  induction l with
  | nil => simp
  | cons a l ih =>
    rw [List.forall_mem_cons] at h
    rw [List.mapM_cons, h.1, ih h.2]
    simp

end

namespace Expr

/-! ### Bindings that do not fit -/

mutual

/-- The expression without the bindings that are not for the type of the child of their cast. -/
def withoutMisfits : Expr → Expr
  | renamed e n => renamed e.withoutMisfits n
  | not e => not e.withoutMisfits
  | comparison op l r => comparison op l.withoutMisfits r.withoutMisfits
  | cast e t b => cast e.withoutMisfits t (b.filter fun c ↦ e.dataType? == some c.source)
  | call n es => call n (withoutMisfitsAll es)
  | aggregate g e => aggregate g e.withoutMisfits
  | e@(literal _ _) | e@star | e@(column _ _) | e@(field _) => e

/-- The expressions without the bindings that are not for the type of the child of their cast. -/
def withoutMisfitsAll : List Expr → List Expr
  | [] => []
  | e :: es => e.withoutMisfits :: withoutMisfitsAll es

end

theorem withoutMisfitsAll_eq (es : List Expr) : withoutMisfitsAll es = es.map withoutMisfits := by
  induction es with
  | nil => rfl
  | cons e es ih => rw [withoutMisfitsAll, ih, List.map_cons]

/-- Types do not depend on bindings. -/
theorem dataType?_withoutMisfits (e : Expr) : e.withoutMisfits.dataType? = e.dataType? := by
  induction e using children_induction with
  | node e ih =>
    cases e with
    | renamed c _ => exact ih c List.mem_cons_self
    | aggregate g c =>
      cases g with
      | count => rfl
      | first => exact ih c List.mem_cons_self
    | _ => rfl

/-- A node that is rebuilt over children without misfits is the node without misfits. -/
theorem mapChildren_withoutMisfits (e : Expr) :
    e.mapChildren withoutMisfits = e.withoutMisfits := by
  cases e with
  | cast c t b =>
    have hfits : c.withoutMisfits.fits = fun b ↦ c.dataType? == some b.source := by
      funext b
      rw [fits, dataType?_withoutMisfits]
    rw [mapChildren, recast, withoutMisfits, hfits]
  | call n es => rw [mapChildren, withoutMisfits, withoutMisfitsAll_eq]
  | _ => rfl

/-- There are no misfits in an expression if and only if every binding in it is for the type of the
child of its cast. -/
theorem withoutMisfits_eq_self_iff {e : Expr} : e.withoutMisfits = e ↔ e.All BindingFits := by
  induction e using children_induction with
  | node e ih =>
    rw [← mapChildren_withoutMisfits, mapChildren_eq_self_iff, all_iff]
    exact and_congr_right fun _ ↦ forall₂_congr ih

/-! ### The order of the nodes -/

mutual

/-- The nodes of an expression: those of its children from left to right, and then the expression.
-/
def postorder : Expr → List Expr
  | e@(literal _ _) | e@star | e@(column _ _) | e@(field _) => [e]
  | e@(renamed c _) | e@(not c) | e@(cast c _ _) | e@(aggregate _ c) => c.postorder ++ [e]
  | e@(comparison _ l r) => l.postorder ++ r.postorder ++ [e]
  | e@(call _ es) => postorderAll es ++ [e]

/-- The nodes of several expressions, from the first to the last. -/
def postorderAll : List Expr → List Expr
  | [] => []
  | e :: es => e.postorder ++ postorderAll es

end

theorem postorderAll_eq (es : List Expr) : postorderAll es = es.flatMap postorder := by
  induction es with
  | nil => rfl
  | cons e es ih => rw [postorderAll, ih, List.flatMap_cons]

theorem postorder_eq (e : Expr) : e.postorder = e.children.flatMap postorder ++ [e] := by
  cases e <;> simp [postorder, children, postorderAll_eq]

/-- Each node of an expression comes once. -/
theorem postorder_perm (e : Expr) : e.postorder.Perm e.subexprs := by
  induction e using children_induction with
  | node e ih =>
    rw [postorder_eq, subexprs_eq]
    exact (List.perm_append_singleton e _).trans ((List.Perm.flatMap_left _ ih).cons e)

/-! ### Transformations by the identity -/

theorem transformUp_id (e : Expr) : e.transformUp id = e.withoutMisfits := by
  induction e using children_induction with
  | node e ih => rw [transformUp_eq, mapChildren_congr ih, mapChildren_withoutMisfits, id]

variable {m : Type → Type} [Monad m]

theorem transformAllUpM_eq [LawfulMonad m] (f : Expr → m Expr) (es : List Expr) :
    transformAllUpM f es = es.mapM (transformUpM f) := by
  induction es with
  | nil => rw [transformAllUpM, List.mapM_nil]
  | cons e es ih => rw [transformAllUpM, List.mapM_cons, ih]

/-- **A transformation visits each node once**, children from left to right before their parent, and
what it hands over is the node without misfits. If it gets the same back, it ends with the
expression without misfits. -/
theorem transformUpM_visiting [LawfulMonad m] (visit : Expr → m Unit) (e : Expr) :
    e.transformUpM (visiting visit) = do
      (e.postorder.map withoutMisfits).forM visit
      return e.withoutMisfits := by
  induction e using children_induction with
  | node e ih =>
    cases e with
    | literal _ _ | star | column _ _ | field _ =>
      simp [transformUpM, visiting, postorder, withoutMisfits]
    | renamed c _ | not c | aggregate _ c =>
      simp [transformUpM, ih c List.mem_cons_self, visiting, postorder, withoutMisfits]
    | comparison _ l r =>
      simp [transformUpM, ih l (by simp [children]), ih r (by simp [children]), visiting, postorder,
        withoutMisfits]
    | cast c t b =>
      have hcast := mapChildren_withoutMisfits (cast c t b)
      rw [mapChildren] at hcast
      simp [transformUpM, ih c List.mem_cons_self, visiting, postorder, hcast]
    | call n es =>
      have hes : es.mapM (transformUpM (visiting visit)) = do
          (es.flatMap fun e ↦ e.postorder.map withoutMisfits).forM visit
          return es.map withoutMisfits := mapM_eq_of_visits ih
      rw [transformUpM, transformAllUpM_eq, hes]
      simp [visiting, postorder, postorderAll_eq, withoutMisfits, withoutMisfitsAll_eq,
        List.map_flatMap]

end Expr

end LogicalQuery
