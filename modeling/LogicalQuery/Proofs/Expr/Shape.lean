import LogicalQuery.Plan.Schema
import LogicalQuery.Proofs.Expr.Subexpression

/-!
# The column that an expression produces

An expression is *named* when all names in it are bound, whether or not its casts have functions.
From then on it produces a column of the same type, nullability and source, whatever the analysis
still does to it: only the name of that column may change, as coercions show in it. The relation
`Refines` says this of two expressions, and passes from the function of a transformation to the
transformation.
-/

namespace LogicalQuery

/-- The column without its name. -/
def Column.unnamed (c : Column) : Column := { c with name := "" }

/-- The column that a field is bound to, without its name. -/
def Field.column (f : Field) : Column :=
  { name := "", type := f.type, nullable := f.nullable, source := f.table }

namespace Expr

/-! ### Named expressions -/

/-- Whether all names and functions in an expression are bound, as in `resolved`, where casts need
not be. -/
def named : Expr → Bool
  | literal _ _ | field _ => true
  | star | column _ _ | call _ _ => false
  | renamed e _ | not e | cast e _ _ => e.named
  | comparison _ l r => l.named && r.named
  -- The star is an argument of `count` alone.
  | aggregate g e => (g == .count && e.isStar) || e.named

theorem named_of_resolved {e : Expr} (h : e.resolved = true) : e.named = true := by
  induction e using children_induction with
  | node e ih =>
    cases e with
    | literal _ _ | star | column _ _ | field _ | call _ _ => exact h
    | renamed c _ | not c => exact ih c List.mem_cons_self h
    | cast c _ _ => exact ih c List.mem_cons_self (Bool.and_eq_true _ _ ▸ h).2
    | comparison _ l r =>
      rw [resolved, Bool.and_eq_true] at h
      rw [named, ih l (by simp [children]) h.1, ih r (by simp [children]) h.2, Bool.and_self]
    | aggregate g c =>
      rw [resolved, Bool.or_eq_true] at h
      rw [named, Bool.or_eq_true]
      exact h.imp_right (ih c List.mem_cons_self)

theorem eq_star_of_isStar {e : Expr} (h : e.isStar = true) : e = star := by
  cases e <;> first | rfl | cases h

/-- The children of a named expression are named, but for the star below `count`. -/
theorem named_or_isStar_of_mem_children {e c : Expr} (h : e.named = true) (hc : c ∈ e.children) :
    c.named = true ∨ c = star := by
  cases e with
  | literal _ _ | star | column _ _ | field _ => exact absurd hc List.not_mem_nil
  | call _ _ => exact nomatch h
  | renamed c' _ | not c' | cast c' _ _ =>
    obtain rfl := List.mem_singleton.1 hc
    exact .inl h
  | comparison _ l r =>
    rw [named, Bool.and_eq_true] at h
    rcases List.mem_cons.1 hc with rfl | hc
    · exact .inl h.1
    · exact .inl (List.mem_singleton.1 hc ▸ h.2)
  | aggregate g c' =>
    obtain rfl := List.mem_singleton.1 hc
    rw [named, Bool.or_eq_true, Bool.and_eq_true] at h
    rcases h with ⟨-, hstar⟩ | h
    · exact .inr (eq_star_of_isStar hstar)
    · exact .inl h

/-- A property holds of all named expressions, if it holds of the star and passes from the children
of each named node to the node. -/
@[elab_as_elim]
theorem named_induction {P : Expr → Prop} (star : P star)
    (node : ∀ e : Expr, e.named = true → (∀ c ∈ e.children, P c) → P e) {e : Expr}
    (h : e.named = true) : P e := by
  induction e using children_induction with
  | node e ih =>
    refine node e h fun c hc ↦ ?_
    rcases named_or_isStar_of_mem_children h hc with hnamed | rfl
    · exact ih c hc hnamed
    · exact star

/-- Named expressions have a type. -/
theorem exists_dataType?_of_named {e : Expr} (h : e.named = true) :
    ∃ t, e.dataType? = some t := by
  induction e using children_induction with
  | node e ih =>
    cases e with
    | literal _ t | cast _ t _ => exact ⟨t, rfl⟩
    | field f => exact ⟨f.type, rfl⟩
    | star | column _ _ | call _ _ => exact nomatch h
    | renamed c _ => exact ih c List.mem_cons_self h
    | not _ | comparison _ _ _ => exact ⟨.boolean, rfl⟩
    | aggregate g c =>
      cases g with
      | count => exact ⟨.integer, rfl⟩
      | first => exact ih c List.mem_cons_self h

/-! ### Shapes -/

/-- The table that the column of an expression comes from, or the empty text. -/
def source : Expr → String
  | field f => f.table
  | _ => ""

/-- The column that an expression produces, without its name. -/
def shape? (e : Expr) : Option Column :=
  e.dataType?.map fun t ↦ { name := "", type := t, nullable := e.nullable, source := e.source }

theorem outputColumn_eq (e : Expr) :
    e.outputColumn = e.dataType.map fun t ↦
      { name := e.name, type := t, nullable := e.nullable, source := e.source } := by
  unfold outputColumn source
  cases e.dataType <;> rfl

theorem toOption_outputColumn (e : Expr) :
    e.outputColumn.toOption.map Column.unnamed = e.shape? := by
  rw [outputColumn_eq, shape?, dataType?]
  cases e.dataType <;> rfl

/-! ### Refining -/

/-- The second expression is named and produces the same column as the first one, up to its name,
if the first one is named, and it is the star if the first one is. -/
structure Refines (e e' : Expr) : Prop where
  isStar : e.isStar = true → e'.isStar = true
  named : e.named = true → e'.named = true
  dataType? : e.named = true → e'.dataType? = e.dataType?
  nullable : e.named = true → e'.nullable = e.nullable
  source : e.named = true → e'.source = e.source

namespace Refines

/-- An expression that agrees with another one in all that is asked for refines it. -/
theorem of_eq {e e' : Expr} (hstar : e'.isStar = e.isStar) (hnamed : e'.named = e.named)
    (htype : e'.dataType? = e.dataType?) (hnullable : e'.nullable = e.nullable)
    (hsource : e'.source = e.source) : e.Refines e' where
  isStar h := hstar.trans h
  named h := hnamed.trans h
  dataType? _ := htype
  nullable _ := hnullable
  source _ := hsource

theorem refl (e : Expr) : e.Refines e := of_eq rfl rfl rfl rfl rfl

theorem trans {e e' e'' : Expr} (h : e.Refines e') (h' : e'.Refines e'') : e.Refines e'' where
  isStar he := h'.isStar (h.isStar he)
  named he := h'.named (h.named he)
  dataType? he := (h'.dataType? (h.named he)).trans (h.dataType? he)
  nullable he := (h'.nullable (h.named he)).trans (h.nullable he)
  source he := (h'.source (h.named he)).trans (h.source he)

/-- Anything refines an expression that is neither named nor the star. -/
theorem of_not_named {e e' : Expr} (hnamed : e.named = false) (hstar : e.isStar = false) :
    e.Refines e' where
  isStar h := absurd (hstar.symm.trans h) Bool.false_ne_true
  named h := absurd (hnamed.symm.trans h) Bool.false_ne_true
  dataType? h := absurd (hnamed.symm.trans h) Bool.false_ne_true
  nullable h := absurd (hnamed.symm.trans h) Bool.false_ne_true
  source h := absurd (hnamed.symm.trans h) Bool.false_ne_true

theorem shape? {e e' : Expr} (h : e.Refines e') (he : e.named = true) : e'.shape? = e.shape? := by
  rw [Expr.shape?, Expr.shape?, h.dataType? he, h.nullable he, h.source he]

end Refines

variable {f g : Expr → Expr}

/-- A node over refined children refines the node. -/
theorem refines_mapChildren {e : Expr} (h : ∀ c ∈ e.children, c.Refines (g c)) :
    e.Refines (e.mapChildren g) := by
  cases e with
  | literal _ _ | star | column _ _ | field _ => exact .refl _
  | renamed c n =>
    have hc := h c List.mem_cons_self
    exact ⟨(absurd · Bool.noConfusion), hc.named, hc.dataType?, hc.nullable, fun _ ↦ rfl⟩
  | not c | cast c _ _ =>
    have hc := h c List.mem_cons_self
    exact ⟨(absurd · Bool.noConfusion), hc.named, fun _ ↦ rfl, hc.nullable, fun _ ↦ rfl⟩
  | comparison op l r =>
    have hl := h l (by simp [children])
    have hr := h r (by simp [children])
    simp only [mapChildren]
    refine ⟨(absurd · Bool.noConfusion), fun he ↦ ?_, fun _ ↦ rfl, fun he ↦ ?_, fun _ ↦ rfl⟩
    · rw [named, Bool.and_eq_true] at he ⊢
      exact ⟨hl.named he.1, hr.named he.2⟩
    · rw [named, Bool.and_eq_true] at he
      rw [nullable, nullable, hl.nullable he.1, hr.nullable he.2]
  | call n es => exact .of_not_named rfl rfl
  | aggregate a c =>
    have hc := h c List.mem_cons_self
    -- A star below `count` stays one, and otherwise the child is named.
    refine ⟨(absurd · Bool.noConfusion), fun he ↦ ?_, fun he ↦ ?_, fun _ ↦ rfl, fun _ ↦ rfl⟩
    · rw [mapChildren, named, Bool.or_eq_true, Bool.and_eq_true]
      rw [named, Bool.or_eq_true, Bool.and_eq_true] at he
      exact he.imp (And.imp_right hc.isStar) hc.named
    · cases a with
      | count => rfl
      | first => exact hc.dataType? he

/-- **Transformations refine.** If a function refines every expression, then so does the
transformation by the function. -/
theorem refines_transformUp (hf : ∀ e, Refines e (f e)) (e : Expr) :
    e.Refines (e.transformUp f) :=
  transformUp_rel (R := Refines) .trans refines_mapChildren hf e

end Expr

end LogicalQuery
