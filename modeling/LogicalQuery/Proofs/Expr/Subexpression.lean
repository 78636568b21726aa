import LogicalQuery.Expr.Transform

/-!
# Subexpressions

The expressions that an expression is made of, itself included. Statements about them go by
induction over children (`children_induction`), and a property of all subexpressions survives a
transformation when rebuilding a node and the function of the transformation keep it
(`All.transformUp`).
-/

namespace LogicalQuery

/-- A function that leaves a list as it is leaves each element as it is. -/
theorem eq_of_map_eq {α : Type} {g : α → α} {l : List α} (h : l.map g = l) : ∀ a ∈ l, g a = a :=
  List.map_inj_left.1 (h.trans (List.map_id l).symm)

namespace Expr

/-! ### Induction over children -/

theorem sizeOf_lt_of_mem_children {c e : Expr} (h : c ∈ e.children) : sizeOf c < sizeOf e := by
  cases e with
  | literal _ _ | star | column _ _ | field _ => exact absurd h List.not_mem_nil
  | renamed e _ | not e | cast e _ _ | aggregate _ e =>
    obtain rfl := List.mem_singleton.1 h
    simp only [renamed.sizeOf_spec, not.sizeOf_spec, cast.sizeOf_spec, aggregate.sizeOf_spec]
    omega
  | comparison op l r =>
    rw [comparison.sizeOf_spec]
    rcases List.mem_cons.1 h with rfl | h
    · omega
    · obtain rfl := List.mem_singleton.1 h
      omega
  | call n es =>
    have : sizeOf c < sizeOf es := List.sizeOf_lt_of_mem h
    rw [call.sizeOf_spec]
    omega

/-- A property holds of all expressions if it passes from the children of each node to the
node. -/
@[elab_as_elim]
theorem children_induction {P : Expr → Prop} (node : ∀ e, (∀ c ∈ e.children, P c) → P e)
    (e : Expr) : P e :=
  node e fun c _ ↦ children_induction node c
termination_by sizeOf e
decreasing_by exact sizeOf_lt_of_mem_children ‹_›

@[simp]
theorem children_mapChildren (f : Expr → Expr) (e : Expr) :
    (e.mapChildren f).children = e.children.map f := by
  cases e <;> rfl

/-! ### Subexpressions -/

mutual

/-- The expressions that an expression is made of, from the root to the leaves and from left to
right. -/
def subexprs : Expr → List Expr
  | e@(literal _ _) | e@star | e@(column _ _) | e@(field _) => [e]
  | e@(renamed c _) | e@(not c) | e@(cast c _ _) | e@(aggregate _ c) => e :: c.subexprs
  | e@(comparison _ l r) => e :: (l.subexprs ++ r.subexprs)
  | e@(call _ es) => e :: subexprsAll es

/-- The expressions that several expressions are made of. -/
def subexprsAll : List Expr → List Expr
  | [] => []
  | e :: es => e.subexprs ++ subexprsAll es

end

theorem subexprsAll_eq (es : List Expr) : subexprsAll es = es.flatMap subexprs := by
  induction es with
  | nil => rfl
  | cons e es ih => rw [subexprsAll, ih, List.flatMap_cons]

theorem subexprs_eq (e : Expr) : e.subexprs = e :: e.children.flatMap subexprs := by
  cases e <;> simp [subexprs, children, subexprsAll_eq]

/-- The number of nodes of an expression. -/
def size (e : Expr) : Nat := e.subexprs.length

theorem mem_subexprs_iff {s e : Expr} :
    s ∈ e.subexprs ↔ s = e ∨ ∃ c ∈ e.children, s ∈ c.subexprs := by
  rw [subexprs_eq, List.mem_cons, List.mem_flatMap]

theorem self_mem_subexprs (e : Expr) : e ∈ e.subexprs := mem_subexprs_iff.2 (.inl rfl)

/-! ### Properties of all subexpressions -/

/-- The property holds of every subexpression. -/
def All (P : Expr → Prop) (e : Expr) : Prop := ∀ s ∈ e.subexprs, P s

variable {P : Expr → Prop}

theorem all_iff {e : Expr} : e.All P ↔ P e ∧ ∀ c ∈ e.children, c.All P := by
  constructor
  · intro h
    exact ⟨h e e.self_mem_subexprs, fun c hc s hs ↦ h s (mem_subexprs_iff.2 (.inr ⟨c, hc, hs⟩))⟩
  · rintro ⟨he, hc⟩ s hs
    rcases mem_subexprs_iff.1 hs with rfl | ⟨c, hmem, hs⟩
    · exact he
    · exact hc c hmem s hs

theorem All.self {e : Expr} (h : e.All P) : P e := (all_iff.1 h).1

theorem All.children {e c : Expr} (h : e.All P) (hc : c ∈ e.children) : c.All P :=
  (all_iff.1 h).2 c hc

theorem All.imp {Q : Expr → Prop} {e : Expr} (hPQ : ∀ s, P s → Q s) (h : e.All P) : e.All Q :=
  fun s hs ↦ hPQ s (h s hs)

/-- Subexpressions have the properties of all subexpressions. -/
theorem All.of_mem {e s : Expr} (h : e.All P) (hs : s ∈ e.subexprs) : s.All P := by
  induction e using children_induction with
  | node e ih =>
    rcases mem_subexprs_iff.1 hs with rfl | ⟨c, hc, hs⟩
    · exact h
    · exact ih c hc (h.children hc) hs

/-- **Transformations keep what each step keeps.** If a node keeps the property when it is rebuilt
over other children, and the function of a transformation keeps the property of all
subexpressions, then so does the transformation. -/
theorem All.transformUp {f : Expr → Expr} (hmap : ∀ e g, P e → P (e.mapChildren g))
    (hf : ∀ e, e.All P → (f e).All P) {e : Expr} (h : e.All P) : (e.transformUp f).All P := by
  induction e using children_induction with
  | node e ih =>
    rw [transformUp_eq]
    refine hf _ (all_iff.2 ⟨hmap e _ h.self, ?_⟩)
    rw [children_mapChildren]
    intro c hc
    obtain ⟨c', hc', rfl⟩ := List.mem_map.1 hc
    exact ih c' hc' (h.children hc')

/-- **Transformations change what their steps change.** A transitive relation leads from an
expression to its transformation, if it leads from every node to the node over changed children and
to the image of the node. -/
theorem transformUp_rel {R : Expr → Expr → Prop}
    (htrans : ∀ {e e' e'' : Expr}, R e e' → R e' e'' → R e e'')
    (hmap : ∀ {e : Expr} {g : Expr → Expr}, (∀ c ∈ e.children, R c (g c)) → R e (e.mapChildren g))
    {f : Expr → Expr} (hf : ∀ e, R e (f e)) (e : Expr) : R e (e.transformUp f) := by
  induction e using children_induction with
  | node e ih =>
    rw [transformUp_eq]
    exact htrans (hmap ih) (hf _)

/-! ### Rebuilding -/

theorem mapChildren_congr {f g : Expr → Expr} {e : Expr} (h : ∀ c ∈ e.children, f c = g c) :
    e.mapChildren f = e.mapChildren g := by
  cases e with
  | literal _ _ | star | column _ _ | field _ => rfl
  | renamed c _ | not c | cast c _ _ | aggregate _ c =>
    rw [mapChildren, mapChildren, h c List.mem_cons_self]
  | comparison _ l r =>
    rw [mapChildren, mapChildren, h l (by simp [Expr.children]), h r (by simp [Expr.children])]
  | call n es => exact congrArg (call n) (List.map_congr_left h)

/-- Two functions that agree on the nodes with a property transform an expression of such nodes in
the same way, if a node keeps the property when it is rebuilt. -/
theorem transformUp_congr {f g : Expr → Expr} (hmap : ∀ e h, P e → P (e.mapChildren h))
    (hfg : ∀ e, P e → f e = g e) {e : Expr} (h : e.All P) :
    e.transformUp f = e.transformUp g := by
  induction e using children_induction with
  | node e ih =>
    have hchildren := mapChildren_congr fun c hc ↦ ih c hc (h.children hc)
    rw [transformUp_eq, transformUp_eq, hchildren, hfg _ (hmap e _ h.self)]

/-- A bound cast at the root of the expression is for the type of its child. -/
def BindingFits : Expr → Prop
  | cast e _ (some c) => e.fits c = true
  | _ => True

/-- A node over its own children is the same, if it does not lose the function of a cast. -/
theorem mapChildren_eq_self {f : Expr → Expr} {e : Expr} (hfits : e.BindingFits)
    (h : ∀ c ∈ e.children, f c = c) : e.mapChildren f = e := by
  cases e with
  | literal _ _ | star | column _ _ | field _ => rfl
  | renamed c _ | not c | aggregate _ c => rw [mapChildren, h c List.mem_cons_self]
  | comparison _ l r =>
    rw [mapChildren, h l (by simp [Expr.children]), h r (by simp [Expr.children])]
  | call n es =>
    have hes : es.map f = es := (List.map_congr_left h).trans (List.map_id es)
    rw [mapChildren, hes]
  | cast c t b =>
    rw [mapChildren, h c List.mem_cons_self, recast]
    cases b with
    | none => rfl
    | some b => rw [Option.filter_some_pos hfits]

/-- A node is rebuilt as it is if and only if its children stay and it does not lose the function of a
cast. -/
theorem mapChildren_eq_self_iff {f : Expr → Expr} {e : Expr} :
    e.mapChildren f = e ↔ e.BindingFits ∧ ∀ c ∈ e.children, f c = c := by
  refine ⟨fun h ↦ ?_, fun h ↦ mapChildren_eq_self h.1 h.2⟩
  have hchildren : ∀ c ∈ e.children, f c = c :=
    eq_of_map_eq ((children_mapChildren f e).symm.trans (congrArg children h))
  refine ⟨?_, hchildren⟩
  cases e with
  | cast c t b =>
    cases b with
    | none => trivial
    | some b =>
      rw [mapChildren, recast, hchildren c List.mem_cons_self, cast.injEq] at h
      exact (Option.filter_eq_some_iff.1 h.2.2).2
  | _ => trivial

/-- A transformation leaves an expression as it is, if its function leaves every subexpression as it
is and every bound cast is for the type of its child. -/
theorem transformUp_eq_self {f : Expr → Expr} {e : Expr}
    (h : e.All fun s ↦ s.BindingFits ∧ f s = s) : e.transformUp f = e := by
  induction e using children_induction with
  | node e ih =>
    rw [transformUp_eq, mapChildren_eq_self h.self.1 fun c hc ↦ ih c hc (h.children hc), h.self.2]

end Expr

end LogicalQuery
