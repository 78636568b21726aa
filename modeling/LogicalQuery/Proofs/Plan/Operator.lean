import LogicalQuery.Plan.Transform
import LogicalQuery.Proofs.Expr.Subexpression
import Mathlib.Algebra.Ring.Nat
import Mathlib.Data.List.Basic

/-!
# Operators of a plan

The operators that a plan is made of, from its root to its table, with their expressions. A plan
is a chain, but statements about operators do not use it: they go by induction over the children
of a plan (`children_induction`), like those about expressions.
-/

namespace LogicalQuery.Plan

/-! ### Children and expressions -/

theorem sizeOf_lt_of_mem_children {c p : Plan} (h : c ∈ p.children) : sizeOf c < sizeOf p := by
  cases p with
  | unresolvedTable _ _ | table _ _ => exact absurd h List.not_mem_nil
  | project p _ | filter p _ | groupBy p _ _ | sort p _ | limit p _ | offset p _ =>
    obtain rfl := List.mem_singleton.1 h
    simp only [project.sizeOf_spec, filter.sizeOf_spec, groupBy.sizeOf_spec, sort.sizeOf_spec,
      limit.sizeOf_spec, offset.sizeOf_spec]
    omega

/-- A property holds of all plans if it passes from the inputs of each operator to the
operator. -/
@[elab_as_elim]
theorem children_induction {P : Plan → Prop} (node : ∀ p, (∀ c ∈ p.children, P c) → P p)
    (p : Plan) : P p :=
  node p fun c _ ↦ children_induction node c
termination_by sizeOf p
decreasing_by exact sizeOf_lt_of_mem_children ‹_›

section

variable (f : Plan → Plan) (g : Expr → Expr) (p : Plan)

@[simp]
theorem children_mapChildren : (p.mapChildren f).children = p.children.map f := by
  cases p <;> rfl

@[simp]
theorem expressions_mapChildren : (p.mapChildren f).expressions = p.expressions := by
  cases p <;> rfl

@[simp]
theorem children_mapExpressions : (p.mapExpressions g).children = p.children := by
  cases p <;> rfl

@[simp]
theorem expressions_mapExpressions : (p.mapExpressions g).expressions = p.expressions.map g := by
  cases p <;> simp [mapExpressions, expressions]

theorem mapChildren_mapChildren (f' : Plan → Plan) :
    (p.mapChildren f).mapChildren f' = p.mapChildren fun c ↦ f' (f c) := by
  cases p <;> rfl

theorem mapChildren_mapExpressions :
    (p.mapExpressions g).mapChildren f = (p.mapChildren f).mapExpressions g := by
  cases p <;> rfl

theorem mapExpressions_mapExpressions (g' : Expr → Expr) :
    (p.mapExpressions g).mapExpressions g' = p.mapExpressions fun e ↦ g' (g e) := by
  cases p <;> simp [mapExpressions]

end

variable {f : Plan → Plan} {g : Expr → Expr}

theorem mapChildren_eq_self {p : Plan} (h : p.children.map f = p.children) :
    p.mapChildren f = p := by
  cases p <;> simp_all [mapChildren, children]

theorem mapExpressions_eq_self {p : Plan} (h : p.expressions.map g = p.expressions) :
    p.mapExpressions g = p := by
  cases p with
  | unresolvedTable _ _ | table _ _ | limit _ _ | offset _ _ => rfl
  | project p es => exact congrArg (project p) h
  | filter p e => exact congrArg (filter p) (List.cons.inj h).1
  | groupBy p as gs =>
    rw [expressions, List.map_append] at h
    obtain ⟨has, hgs⟩ := List.append_inj h (by simp)
    exact congr (congrArg (groupBy p) has) hgs
  | sort p ks =>
    have hks : (ks.map fun k ↦ { k with expr := g k.expr }) = ks := by
      refine List.map_congr_left (fun k hk ↦ ?_) |>.trans (List.map_id _)
      have hk' : g k.expr = k.expr := eq_of_map_eq h _ (List.mem_map_of_mem hk)
      rw [hk', id]
    exact congrArg (sort p) hks

/-! ### Operators -/

/-- The operators that a plan is made of, from the root to the table. Each stands for the plan
below it. -/
def operators : Plan → List Plan
  | p@(unresolvedTable _ _) | p@(table _ _) => [p]
  | p@(project input _) | p@(filter input _) | p@(groupBy input _ _) | p@(sort input _)
  | p@(limit input _) | p@(offset input _) => p :: input.operators

theorem operators_eq (p : Plan) : p.operators = p :: p.children.flatMap operators := by
  cases p <;> simp [operators, children]

/-- The number of nodes of all expressions in a plan. -/
def exprCount (p : Plan) : Nat := ((p.operators.flatMap expressions).map Expr.size).sum

theorem exprCount_eq (p : Plan) :
    p.exprCount = (p.expressions.map Expr.size).sum + (p.children.map exprCount).sum := by
  cases p <;> simp [exprCount, operators, children, expressions, Nat.add_assoc]

theorem mem_operators_iff {n p : Plan} :
    n ∈ p.operators ↔ n = p ∨ ∃ c ∈ p.children, n ∈ c.operators := by
  rw [operators_eq, List.mem_cons, List.mem_flatMap]

theorem self_mem_operators (p : Plan) : p ∈ p.operators := mem_operators_iff.2 (.inl rfl)

/-! ### Properties of all operators -/

/-- The property holds of every operator. -/
def All (P : Plan → Prop) (p : Plan) : Prop := ∀ n ∈ p.operators, P n

variable {P : Plan → Prop}

theorem all_iff {p : Plan} : p.All P ↔ P p ∧ ∀ c ∈ p.children, c.All P := by
  constructor
  · intro h
    exact ⟨h p p.self_mem_operators, fun c hc n hn ↦ h n (mem_operators_iff.2 (.inr ⟨c, hc, hn⟩))⟩
  · rintro ⟨hp, hc⟩ n hn
    rcases mem_operators_iff.1 hn with rfl | ⟨c, hmem, hn⟩
    · exact hp
    · exact hc c hmem n hn

theorem All.self {p : Plan} (h : p.All P) : P p := (all_iff.1 h).1

theorem All.children {p c : Plan} (h : p.All P) (hc : c ∈ p.children) : c.All P :=
  (all_iff.1 h).2 c hc

theorem All.imp {Q : Plan → Prop} {p : Plan} (hPQ : ∀ n, P n → Q n) (h : p.All P) : p.All Q :=
  fun n hn ↦ hPQ n (h n hn)

/-- Operators have the properties of all operators. -/
theorem All.of_mem {p n : Plan} (h : p.All P) (hn : n ∈ p.operators) : n.All P := by
  induction p using children_induction with
  | node p ih =>
    rcases mem_operators_iff.1 hn with rfl | ⟨c, hc, hn⟩
    · exact h
    · exact ih c hc (h.children hc) hn

/-! ### Transformations -/

/-- A transitive relation leads from a plan to its transformation, if it leads from every operator
to the operator over changed inputs and to the image of the operator. -/
theorem transformUp_rel {R : Plan → Plan → Prop}
    (htrans : ∀ {p p' p'' : Plan}, R p p' → R p' p'' → R p p'')
    (hmap : ∀ {p : Plan} {g : Plan → Plan}, (∀ c ∈ p.children, R c (g c)) → R p (p.mapChildren g))
    {f : Plan → Plan} (hf : ∀ p, R p (f p)) (p : Plan) : R p (p.transformUp f) := by
  induction p using children_induction with
  | node p ih =>
    rw [transformUp_eq]
    exact htrans (hmap ih) (hf _)

/-- A transformation transforms inputs as if they were alone, if its function keeps inputs. -/
theorem children_transformUp {f : Plan → Plan} (hf : ∀ p, (f p).children = p.children) (p : Plan) :
    (p.transformUp f).children = p.children.map (transformUp f) := by
  rw [transformUp_eq, hf, children_mapChildren]

theorem children_transformExpressionsUp (g : Expr → Expr) (p : Plan) :
    (p.transformExpressionsUp g).children = p.children.map (transformExpressionsUp g) :=
  children_transformUp (children_mapExpressions _) p

/-- A function that does to inputs what it does to them alone does so to every operator. -/
theorem operators_eq_map {f : Plan → Plan} (hf : ∀ p, (f p).children = p.children.map f)
    (p : Plan) : (f p).operators = p.operators.map f := by
  induction p using children_induction with
  | node p ih =>
    rw [operators_eq, hf, operators_eq p, List.map_cons, List.flatMap_map, List.map_flatMap]
    exact congrArg (f p :: ·) (List.flatMap_congr ih)

theorem mapChildren_congr {f g : Plan → Plan} {p : Plan} (h : ∀ c ∈ p.children, f c = g c) :
    p.mapChildren f = p.mapChildren g := by
  cases p with
  | unresolvedTable _ _ | table _ _ => rfl
  | project c _ | filter c _ | groupBy c _ _ | sort c _ | limit c _ | offset c _ =>
    rw [mapChildren, mapChildren, h c List.mem_cons_self]

theorem mapExpressions_congr {f g : Expr → Expr} {p : Plan} (h : ∀ e ∈ p.expressions, f e = g e) :
    p.mapExpressions f = p.mapExpressions g := by
  cases p with
  | unresolvedTable _ _ | table _ _ | limit _ _ | offset _ _ => rfl
  | project c es => exact congrArg (project c) (List.map_congr_left h)
  | filter c e => exact congrArg (filter c) (h e List.mem_cons_self)
  | groupBy c as gs =>
    have has := List.map_congr_left fun e he ↦ h e (List.mem_append_left gs he)
    have hgs := List.map_congr_left fun e he ↦ h e (List.mem_append_right as he)
    rw [mapExpressions, mapExpressions, has, hgs]
  | sort c ks =>
    refine congrArg (sort c) (List.map_congr_left fun k hk ↦ ?_)
    rw [h k.expr (List.mem_map_of_mem hk)]

/-- Two functions that agree on the operators with a property transform a plan of such operators in
the same way, if an operator keeps the property when its input changes. -/
theorem transformUp_congr {f g : Plan → Plan} (hmap : ∀ p h, P p → P (p.mapChildren h))
    (hfg : ∀ p, P p → f p = g p) {p : Plan} (h : p.All P) :
    p.transformUp f = p.transformUp g := by
  induction p using children_induction with
  | node p ih =>
    have hchildren := mapChildren_congr fun c hc ↦ ih c hc (h.children hc)
    rw [transformUp_eq, transformUp_eq, hchildren, hfg _ (hmap p _ h.self)]

/-- A transformation leaves a plan as it is, if its function leaves every operator as it is. -/
theorem transformUp_eq_self {f : Plan → Plan} {p : Plan} (h : p.All fun n ↦ f n = n) :
    p.transformUp f = p := by
  induction p using children_induction with
  | node p ih =>
    have hchildren : p.children.map (transformUp f) = p.children :=
      (List.map_congr_left fun c hc ↦ ih c hc (h.children hc)).trans (List.map_id _)
    rw [transformUp_eq, mapChildren_eq_self hchildren, h.self]

/-- A transformation of all expressions leaves a plan as it is, if it leaves every expression as it
is. -/
theorem transformExpressionsUp_eq_self {g : Expr → Expr} {p : Plan}
    (h : p.All fun n ↦ ∀ e ∈ n.expressions, e.transformUp g = e) :
    p.transformExpressionsUp g = p :=
  transformUp_eq_self <| h.imp fun _ hn ↦
    mapExpressions_eq_self ((List.map_congr_left hn).trans (List.map_id _))

theorem transformExpressionsUp_eq (g : Expr → Expr) (p : Plan) :
    p.transformExpressionsUp g =
      (p.mapChildren (transformExpressionsUp g)).transformExpressions g :=
  transformUp_eq _ p

/-- Two functions that transform every expression in the same way transform a plan in the same
way. -/
theorem transformExpressionsUp_congr {f g : Expr → Expr} {p : Plan}
    (h : p.All fun n ↦ ∀ e ∈ n.expressions, e.transformUp f = e.transformUp g) :
    p.transformExpressionsUp f = p.transformExpressionsUp g := by
  induction p using children_induction with
  | node p ih =>
    rw [transformExpressionsUp_eq, transformExpressionsUp_eq,
      mapChildren_congr fun c hc ↦ ih c hc (h.children hc)]
    refine mapExpressions_congr ?_
    rw [expressions_mapChildren]
    exact h.self

end LogicalQuery.Plan
