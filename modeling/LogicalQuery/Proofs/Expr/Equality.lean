import LogicalQuery.Proofs.Expr.Pending

/-!
# Equality of expressions

Two expressions are equal when they are the same up to the functions of their bound casts
(`beq_iff_erase_eq`). Neither the name and the type of an expression nor the steps that are left in it
depend on these functions.
-/

namespace LogicalQuery

/-- The cast with the identity for its function. -/
def BoundCast.erase (c : BoundCast) : BoundCast := { c with function := .ok }

theorem BoundCast.erase_erase (c : BoundCast) : c.erase.erase = c.erase := rfl

theorem BoundCast.erase_eq_of_beq {b b' : Option BoundCast} (h : (b == b') = true) :
    b.map erase = b'.map erase := by
  rcases b, b' with ⟨_ | ⟨s, t, f⟩, _ | ⟨s', t', f'⟩⟩
  · rfl
  · exact nomatch h
  · exact nomatch h
  · have hpair : (s == s' && t == t') = true := h
    rw [Bool.and_eq_true, beq_iff_eq, beq_iff_eq] at hpair
    obtain ⟨rfl, rfl⟩ := hpair
    rfl

theorem BoundCast.beq_of_erase_eq {b b' : Option BoundCast} (h : b.map erase = b'.map erase) :
    (b == b') = true := by
  rcases b, b' with ⟨_ | ⟨s, t, f⟩, _ | ⟨s', t', f'⟩⟩
  · rfl
  · exact nomatch h
  · exact nomatch h
  · simp only [Option.map_some, Option.some.injEq, erase, mk.injEq] at h
    obtain ⟨rfl, rfl, -⟩ := h
    exact (beq_self_eq_true (BoundCast.mk s t f) :)

namespace Expr

mutual

/-- The expression with the identity for the function of each bound cast. -/
def erase : Expr → Expr
  | renamed e n => renamed e.erase n
  | not e => not e.erase
  | comparison op l r => comparison op l.erase r.erase
  | cast e t b => cast e.erase t (b.map BoundCast.erase)
  | call n es => call n (eraseAll es)
  | aggregate g e => aggregate g e.erase
  | e@(literal _ _) | e@star | e@(column _ _) | e@(field _) => e

/-- The expressions with the identity for the function of each bound cast. -/
def eraseAll : List Expr → List Expr
  | [] => []
  | e :: es => e.erase :: eraseAll es

end

theorem eraseAll_eq (es : List Expr) : eraseAll es = es.map erase := by
  induction es with
  | nil => rfl
  | cons e es ih => rw [eraseAll, ih, List.map_cons]

/-- Equal expressions are the same without the functions of their bound casts. -/
theorem erase_eq_of_beq (e e' : Expr) : beq e e' = true → e.erase = e'.erase := by
  refine beq.induct (fun e e' ↦ beq e e' = true → e.erase = e'.erase)
    (fun es es' ↦ beqAll es es' = true → eraseAll es = eraseAll es')
    ?literal ?star ?column ?field ?renamed ?not ?comparison ?cast ?call ?aggregate ?other
    ?nil ?cons ?otherAll e e'
  case literal | star | column | field | nil =>
    intros
    simp_all [beq, erase]
  case renamed | not | comparison | call | aggregate | cons =>
    intros
    simp_all [beq, beqAll, erase, eraseAll]
  case cast =>
    intro e t b e' t' b' ih h
    simp only [beq, Bool.and_eq_true, beq_iff_eq] at h
    rw [erase, erase, ih h.1.1, h.1.2, BoundCast.erase_eq_of_beq h.2]
  case other =>
    intros
    simp_all [beq]
  case otherAll =>
    intros
    simp_all [beqAll]

@[simp]
theorem children_erase (e : Expr) : e.erase.children = e.children.map erase := by
  cases e <;> simp [erase, children, eraseAll_eq]

/-- Nothing is left to erase in an erased expression. -/
@[simp]
theorem erase_erase (e : Expr) : e.erase.erase = e.erase := by
  induction e using children_induction with
  | node e ih =>
    cases e with
    | literal _ _ | star | column _ _ | field _ => rfl
    | renamed c _ | not c | aggregate _ c => simp only [erase, ih c List.mem_cons_self]
    | comparison _ l r =>
      simp only [erase, ih l (by simp [children]), ih r (by simp [children])]
    | cast c t b =>
      simp only [erase, ih c List.mem_cons_self, Option.map_map, Function.comp_def,
        BoundCast.erase_erase]
    | call n es =>
      simp only [erase, eraseAll_eq, List.map_map, call.injEq, true_and]
      exact List.map_congr_left ih

theorem beqAll_of_eraseAll_eq {es es' : List Expr}
    (ih : ∀ e ∈ es, ∀ {e' : Expr}, e.erase = e'.erase → beq e e' = true)
    (h : eraseAll es = eraseAll es') : beqAll es es' = true := by
  induction es generalizing es' with
  | nil =>
    cases es' with
    | nil => rfl
    | cons _ _ => exact nomatch h
  | cons e es ihs =>
    cases es' with
    | nil => exact nomatch h
    | cons e' es' =>
      rw [eraseAll, eraseAll, List.cons.injEq] at h
      rw [List.forall_mem_cons] at ih
      rw [beqAll, ih.1 h.1, ihs ih.2 h.2, Bool.and_self]

/-- Expressions that are the same without the functions of their bound casts are equal. -/
theorem beq_of_erase_eq {e e' : Expr} (h : e.erase = e'.erase) : beq e e' = true := by
  induction e using children_induction generalizing e' with
  | node e ih =>
    cases e with
    | literal v t =>
      cases e' with
      | literal v' t' =>
        obtain ⟨rfl, rfl⟩ := literal.inj h
        exact beq_refl _
      | _ => cases h
    | star =>
      cases e' with
      | star => rfl
      | _ => cases h
    | column q n =>
      cases e' with
      | column q' n' =>
        obtain ⟨rfl, rfl⟩ := column.inj h
        exact beq_refl _
      | _ => cases h
    | field f =>
      cases e' with
      | field f' =>
        obtain rfl := field.inj h
        exact beq_refl _
      | _ => cases h
    | renamed c n =>
      cases e' with
      | renamed c' n' =>
        rw [erase, erase, renamed.injEq] at h
        rw [beq, ih c List.mem_cons_self h.1, h.2, beq_self_eq_true, Bool.and_self]
      | _ => cases h
    | not c =>
      cases e' with
      | not c' => exact ih c List.mem_cons_self (not.inj h)
      | _ => cases h
    | comparison op l r =>
      cases e' with
      | comparison op' l' r' =>
        rw [erase, erase, comparison.injEq] at h
        rw [beq, ih l (by simp [children]) h.2.1, ih r (by simp [children]) h.2.2, h.1,
          beq_self_eq_true, Bool.and_self, Bool.and_self]
      | _ => cases h
    | cast c t b =>
      cases e' with
      | cast c' t' b' =>
        rw [erase, erase, cast.injEq] at h
        rw [beq, ih c List.mem_cons_self h.1, h.2.1, BoundCast.beq_of_erase_eq h.2.2,
          beq_self_eq_true, Bool.and_self, Bool.and_self]
      | _ => cases h
    | call n es =>
      cases e' with
      | call n' es' =>
        rw [erase, erase, call.injEq] at h
        have hes : beqAll es es' = true := beqAll_of_eraseAll_eq (fun e he _ ↦ ih e he) h.2
        rw [beq, hes, h.1, beq_self_eq_true, Bool.and_self]
      | _ => cases h
    | aggregate g c =>
      cases e' with
      | aggregate g' c' =>
        rw [erase, erase, aggregate.injEq] at h
        rw [beq, ih c List.mem_cons_self h.2, h.1, beq_self_eq_true, Bool.and_self]
      | _ => cases h

/-- **Expressions are equal if and only if they are the same without the functions of their bound
casts.** -/
theorem beq_iff_erase_eq {e e' : Expr} : (e == e') = true ↔ e.erase = e'.erase :=
  ⟨erase_eq_of_beq e e', beq_of_erase_eq⟩

instance : PartialEquivBEq Expr where
  symm h := beq_iff_erase_eq.2 (beq_iff_erase_eq.1 h).symm
  trans h h' := beq_iff_erase_eq.2 ((beq_iff_erase_eq.1 h).trans (beq_iff_erase_eq.1 h'))

/-- Lists of expressions are equal if and only if they are the same without the functions of bound
casts. -/
theorem beq_iff_map_erase_eq {es es' : List Expr} :
    (es == es') = true ↔ es.map erase = es'.map erase := by
  induction es generalizing es' with
  | nil => cases es' <;> simp
  | cons e es ih =>
    cases es' with
    | nil => simp
    | cons e' es' => rw [List.cons_beq_cons, Bool.and_eq_true, beq_iff_erase_eq, ih]; simp

/-! ### Names, types and steps -/

@[simp]
theorem name_erase (e : Expr) : e.erase.name = e.name := by
  have hnames (es : List Expr) (ih : ∀ e ∈ es, e.erase.name = e.name) :
      names (eraseAll es) = names es := by
    induction es with
    | nil => rfl
    | cons e es ihs =>
      rw [List.forall_mem_cons] at ih
      rw [eraseAll, names, names, ih.1, ihs ih.2]
  induction e using children_induction with
  | node e ih =>
    cases e with
    | literal _ _ | star | column _ _ | field _ | renamed _ _ => rfl
    | not c | aggregate _ c | cast c _ _ => rw [erase, name, name, ih c List.mem_cons_self]
    | comparison _ l r =>
      rw [erase, name, name, ih l (by simp [children]), ih r (by simp [children])]
    | call n es => rw [erase, name, name, hnames es ih]

@[simp]
theorem dataType_erase (e : Expr) : e.erase.dataType = e.dataType := by
  induction e using children_induction with
  | node e ih =>
    cases e with
    | renamed c _ => exact ih c List.mem_cons_self
    | aggregate g c =>
      cases g with
      | count => rfl
      | first => exact ih c List.mem_cons_self
    | call n es =>
      have hname := name_erase (call n es)
      rw [erase] at hname ⊢
      rw [dataType, dataType, hname]
    | _ => rfl

@[simp]
theorem dataType?_erase (e : Expr) : e.erase.dataType? = e.dataType? := by
  rw [dataType?, dataType_erase, dataType?]

@[simp]
theorem nullable_erase (e : Expr) : e.erase.nullable = e.nullable := by
  induction e using children_induction with
  | node e ih =>
    cases e with
    | renamed c _ | not c | cast c _ _ => exact ih c List.mem_cons_self
    | comparison _ l r =>
      rw [erase, nullable, nullable, ih l (by simp [children]), ih r (by simp [children])]
    | _ => rfl

theorem isStar_erase (e : Expr) : e.erase.isStar = e.isStar := by
  cases e <;> rfl

/-- Whether an expression is resolved does not depend on the functions of its bound casts. -/
@[simp]
theorem resolved_erase (e : Expr) : e.erase.resolved = e.resolved := by
  induction e using children_induction with
  | node e ih =>
    cases e with
    | literal _ _ | star | column _ _ | field _ | call _ _ => rfl
    | renamed c _ | not c => exact ih c List.mem_cons_self
    | comparison _ l r =>
      rw [erase, resolved, resolved, ih l (by simp [children]), ih r (by simp [children])]
    | cast c _ b => rw [erase, resolved, resolved, ih c List.mem_cons_self, Option.isSome_map]
    | aggregate _ c => rw [erase, resolved, resolved, ih c List.mem_cons_self, isStar_erase]

theorem pendingAtRoot_erase (e : Expr) : e.erase.pendingAtRoot = e.pendingAtRoot := by
  cases e with
  | comparison _ l r => simp [erase, pendingAtRoot]
  | cast e t b =>
    cases b with
    | none => rfl
    | some b => simp [erase, pendingAtRoot, fits, BoundCast.erase]
  | _ => rfl

@[simp]
theorem pending_erase (e : Expr) : e.erase.pending = e.pending := by
  induction e using children_induction with
  | node e ih =>
    have hchildren : (e.children.map erase).map pending = e.children.map pending := by
      rw [List.map_map]
      exact List.map_congr_left ih
    rw [pending_eq, pending_eq e, pendingAtRoot_erase, children_erase, pendingAll, hchildren,
      pendingAll]

end Expr

end LogicalQuery
