import LogicalQuery.Expr.Eval
import LogicalQuery.Proofs.Expr.Subexpression

/-!
# Evaluation with conversions

The value that an expression has when values are converted during evaluation and not by casts in
the expression: where two operands of different types meet, the value of the operand of the lower
rank is converted to the common type, and where the expression asks for a cast, the value of its
child is converted to the target (`evalConverting`). The functions that casts are bound to play no
part in it, and so a transformation keeps the value if its function keeps it at every node
(`sameValues_transformUp`).
-/

namespace LogicalQuery

namespace CastRegistry

/-- The value of type `source`, converted to the type `target` by the cast of the registry. Null
stays null. -/
def convert (casts : CastRegistry) (source target : DataType) (v : Value) : Except Error Value :=
  if v.isNull then .ok .null
  else do
    let function ← casts.function source target
    function v

/-- The value of an operand of type `source`, converted if it is to be compared at another type. -/
def convertOperand (casts : CastRegistry) (source common : DataType) (v : Value) :
    Except Error Value :=
  if source = common then .ok v else casts.convert source common v

theorem convertOperand_self (casts : CastRegistry) (t : DataType) (v : Value) :
    casts.convertOperand t t v = .ok v :=
  if_pos rfl

theorem convertOperand_of_ne (casts : CastRegistry) {source common : DataType}
    (h : source ≠ common) : casts.convertOperand source common = casts.convert source common := by
  funext v
  exact if_neg h

/-- Conversion does what the cast of the registry does when it is bound. -/
theorem convert_eq_apply {casts : CastRegistry} {source target : DataType} {f : CastFunction}
    (hf : casts.function source target = .ok f) :
    casts.convert source target = BoundCast.apply ⟨source, target, f⟩ := by
  funext v
  rw [convert, BoundCast.apply, hf]
  rfl

end CastRegistry

namespace Expr

/-- The value of an expression on a row, where values are converted by the casts of the registry
right after their evaluation: that of an operand of lower rank to the common type of a comparison,
and that of the child of a cast to its target. -/
def evalConverting (casts : CastRegistry) (row : Row) : Expr → Except Error Value
  | renamed e _ => e.evalConverting casts row
  | not e => do
    match ← e.evalConverting casts row with
    | .boolean b => return .boolean !b
    | .null => return .null
    | v => throw (.typeMismatch .boolean v.dataType?)
  | comparison op l r => do
    let s ← l.dataType
    let t ← r.dataType
    let a ← casts.convertOperand s (DataType.common s t) (← l.evalConverting casts row)
    let b ← casts.convertOperand t (DataType.common s t) (← r.evalConverting casts row)
    if a.isNull || b.isNull then return .null
    let order ← (DataType.common s t).compare a b
    return .boolean (op.holds order)
  | cast e t _ => do
    let s ← e.dataType
    casts.convert s t (← e.evalConverting casts row)
  | e => e.eval row

/-! ### Scalars -/

/-- At its root, the expression is a constant, a bound column, a renaming, a negation, a comparison
or a cast. If the cast has a function, it is that of the registry. -/
def IsScalar (casts : CastRegistry) : Expr → Prop
  | literal _ _ | field _ | renamed _ _ | not _ | comparison _ _ _ | cast _ _ none => True
  | cast _ t (some c) => c.target = t ∧ casts.function c.source t = .ok c.function
  | star | column _ _ | call _ _ | aggregate _ _ => False

variable {casts : CastRegistry}

/-- A scalar stays one when it is rebuilt. -/
theorem IsScalar.mapChildren {e : Expr} (h : e.IsScalar casts) (g : Expr → Expr) :
    (e.mapChildren g).IsScalar casts := by
  cases e with
  | cast c t b =>
    cases b with
    | none => trivial
    | some b =>
      rw [Expr.mapChildren, recast, Option.filter]
      split
      next => exact h
      next => trivial
  | _ => exact h

/-! ### Transformations -/

/-- The second expression is one of scalars, with the type and the values of the first one. -/
structure SameValues (casts : CastRegistry) (e e' : Expr) : Prop where
  scalars : e'.All (IsScalar casts)
  dataType : e'.dataType = e.dataType
  evalConverting : ∀ row, e'.evalConverting casts row = e.evalConverting casts row

namespace SameValues

theorem refl {e : Expr} (h : e.All (IsScalar casts)) : SameValues casts e e :=
  ⟨h, rfl, fun _ ↦ rfl⟩

theorem trans {e e' e'' : Expr} (h : SameValues casts e e') (h' : SameValues casts e' e'') :
    SameValues casts e e'' where
  scalars := h'.scalars
  dataType := h'.dataType.trans h.dataType
  evalConverting row := (h'.evalConverting row).trans (h.evalConverting row)

end SameValues

/-- A scalar keeps its type and its values over children that keep theirs. -/
theorem sameValues_mapChildren {g : Expr → Expr} {e : Expr} (he : e.IsScalar casts)
    (h : ∀ c ∈ e.children, SameValues casts c (g c)) : SameValues casts e (e.mapChildren g) := by
  have hscalars : (e.mapChildren g).All (IsScalar casts) := by
    refine all_iff.2 ⟨he.mapChildren g, ?_⟩
    rw [children_mapChildren]
    exact List.forall_mem_map.2 fun c hc ↦ (h c hc).scalars
  cases e with
  | literal _ _ | field _ => exact ⟨hscalars, rfl, fun _ ↦ rfl⟩
  | star | column _ _ | call _ _ | aggregate _ _ => exact he.elim
  | renamed c _ =>
    have hc := h c List.mem_cons_self
    exact ⟨hscalars, hc.dataType, hc.evalConverting⟩
  | not c =>
    have hc := h c List.mem_cons_self
    refine ⟨hscalars, rfl, fun row ↦ ?_⟩
    rw [mapChildren, evalConverting, evalConverting, hc.evalConverting]
  | comparison op l r =>
    have hl := h l (by simp [children])
    have hr := h r (by simp [children])
    refine ⟨hscalars, rfl, fun row ↦ ?_⟩
    rw [mapChildren, evalConverting, evalConverting, hl.evalConverting, hr.evalConverting,
      hl.dataType, hr.dataType]
  | cast c t b =>
    have hc := h c List.mem_cons_self
    refine ⟨hscalars, rfl, fun row ↦ ?_⟩
    rw [mapChildren, recast, evalConverting, evalConverting, hc.evalConverting, hc.dataType]

/-- **Transformations keep values**, if their functions do. -/
theorem sameValues_transformUp {f : Expr → Expr}
    (hf : ∀ e : Expr, e.All (IsScalar casts) → SameValues casts e (f e)) {e : Expr}
    (he : e.All (IsScalar casts)) : SameValues casts e (e.transformUp f) := by
  induction e using children_induction with
  | node e ih =>
    rw [transformUp_eq]
    have hmap := sameValues_mapChildren he.self fun c hc ↦ ih c hc (he.children hc)
    exact hmap.trans (hf _ hmap.scalars)

end Expr

end LogicalQuery
