import LogicalQuery.Proofs.Expr.Shape
import LogicalQuery.Proofs.Outcome
import LogicalQuery.Proofs.Plan.Operator

/-!
# The shape of a plan

The shape of a plan is its columns without their names, once the table and all names in the plan
are bound. From then on a shape stays, whatever the analysis still does to the plan (`Refines`), so
that columns which are bound to the positions of an input remain bound to columns of their type
and nullability.
-/

namespace LogicalQuery.Plan

/-! ### Named plans -/

/-- Whether the operator is a table by its name. -/
def isUnresolvedTable : Plan → Bool
  | unresolvedTable _ _ => true
  | _ => false

/-- Whether the table and all names and functions in the expressions of a plan are bound, as in
`resolved`, where casts need not be. -/
def named (p : Plan) : Bool :=
  p.operators.all fun n ↦ !n.isUnresolvedTable && n.expressions.all Expr.named

theorem named_iff {p : Plan} :
    p.named = true ↔ p.isUnresolvedTable = false ∧ (∀ e ∈ p.expressions, e.named = true) ∧
      ∀ c ∈ p.children, c.named = true := by
  rw [named, operators_eq, List.all_cons, List.all_flatMap]
  simp only [Bool.and_eq_true, Bool.not_eq_true', List.all_eq_true, and_assoc, named]

/-- The expressions of all operators of a named plan are named. -/
theorem named_of_mem_expressions {p n : Plan} (h : p.named = true) (hn : n ∈ p.operators) {e : Expr}
    (he : e ∈ n.expressions) : e.named = true := by
  rw [named, List.all_eq_true] at h
  have hexprs := h n hn
  rw [Bool.and_eq_true, List.all_eq_true] at hexprs
  exact hexprs.2 e he

theorem resolved_iff {p : Plan} :
    p.resolved = true ↔ p.isUnresolvedTable = false ∧ (∀ e ∈ p.expressions, e.resolved = true) ∧
      ∀ c ∈ p.children, c.resolved = true := by
  cases p <;> simp [resolved, isUnresolvedTable, expressions, children, and_comm, or_imp,
    forall_and, - List.mem_map, - List.all_map]

/-- Every operator of a resolved plan is resolved. -/
theorem all_resolved {p : Plan} (h : p.resolved = true) : p.All fun n ↦ n.resolved = true := by
  induction p using children_induction with
  | node p ih => exact all_iff.2 ⟨h, fun c hc ↦ ih c hc ((resolved_iff.1 h).2.2 c hc)⟩

theorem named_of_resolved {p : Plan} (h : p.resolved = true) : p.named = true := by
  induction p using children_induction with
  | node p ih =>
    obtain ⟨htable, hexprs, hchildren⟩ := resolved_iff.1 h
    exact named_iff.2 ⟨htable, fun e he ↦ Expr.named_of_resolved (hexprs e he),
      fun c hc ↦ ih c hc (hchildren c hc)⟩

/-! ### Columns without names -/

/-- The columns of a plan without their names, if they are known. -/
def columns? (p : Plan) : Option (List Column) := p.schema.toOption.map (List.map Column.unnamed)

theorem toOption_outputColumns (es : List Expr) :
    (outputColumns es).toOption.map (List.map Column.unnamed) = es.mapM Expr.shape? := by
  have hmapM (es : List Expr) : (es.mapM Expr.outputColumn).toOption.map (List.map Column.unnamed) =
      es.mapM Expr.shape? := by
    induction es with
    | nil => rfl
    | cons e es ih =>
      rw [List.mapM_cons, List.mapM_cons, ← ih, ← Expr.toOption_outputColumn]
      cases e.outputColumn with
      | error _ => rfl
      | ok c => cases es.mapM Expr.outputColumn <;> rfl
  rw [← hmapM, outputColumns]
  cases es.mapM Expr.outputColumn <;> rfl

theorem exists_outputColumns_of_named {es : List Expr} (h : ∀ e ∈ es, e.named = true) :
    ∃ cs, outputColumns es = .ok cs := by
  rw [outputColumns]
  cases hes : es.mapM Expr.outputColumn with
  | ok cs => exact ⟨cs, rfl⟩
  | error err =>
    obtain ⟨e, he, herr⟩ := exists_mem_of_mapM_eq_error hes
    obtain ⟨t, ht⟩ := Expr.exists_dataType?_of_named (h e he)
    rw [Expr.outputColumn_eq, Expr.dataType?_eq_some_iff.1 ht] at herr
    exact nomatch herr

/-- The columns of a named plan are known. -/
theorem exists_schema_of_named {p : Plan} (h : p.named = true) : ∃ cs, p.schema = .ok cs := by
  induction p with
  | unresolvedTable _ _ => exact absurd (named_iff.1 h).1 Bool.noConfusion
  | table _ s => exact ⟨s.columns, rfl⟩
  | project _ es => exact exists_outputColumns_of_named (named_iff.1 h).2.1
  | groupBy _ as gs =>
    exact exists_outputColumns_of_named fun e he ↦
      (named_iff.1 h).2.1 e (List.mem_append_left gs he)
  | filter c _ ih | sort c _ ih | limit c _ ih | offset c _ ih =>
    exact ih ((named_iff.1 h).2.2 c List.mem_cons_self)

theorem resolvedSchema?_eq_some_iff {p : Plan} {cs : List Column} :
    p.resolvedSchema? = some cs ↔ p.resolved = true ∧ p.schema = .ok cs := by
  rw [resolvedSchema?]
  cases p.resolved <;> cases p.schema <;> simp [Except.toOption]

/-- The columns of a named plan without their names, and no columns for other plans. -/
def shape (p : Plan) : List Column := if p.named then p.columns?.getD [] else []

theorem shape_eq_nil {p : Plan} (h : p.named = false) : p.shape = [] := by
  rw [shape, h]
  rfl

theorem shape_of_schema {p : Plan} (h : p.named = true) {cs : List Column}
    (hcs : p.schema = .ok cs) : p.shape = cs.map Column.unnamed := by
  rw [shape, if_pos h, columns?, hcs]
  rfl

/-! ### Refining -/

/-- The second plan is named and has the same columns as the first one, up to their names, if the
first one is named. -/
def Refines (p p' : Plan) : Prop :=
  p.named = true → p'.named = true ∧ p'.columns? = p.columns?

theorem Refines.refl (p : Plan) : p.Refines p := fun h ↦ ⟨h, rfl⟩

theorem Refines.trans {p p' p'' : Plan} (h : p.Refines p') (h' : p'.Refines p'') :
    p.Refines p'' := by
  intro hp
  obtain ⟨hp', hcolumns⟩ := h hp
  obtain ⟨hp'', hcolumns'⟩ := h' hp'
  exact ⟨hp'', hcolumns'.trans hcolumns⟩

theorem Refines.shape {p p' : Plan} (h : p.Refines p') (hp : p.named = true) :
    p'.shape = p.shape := by
  obtain ⟨hp', hcolumns⟩ := h hp
  rw [Plan.shape, Plan.shape, if_pos hp, if_pos hp', hcolumns]

/-- An operator over refined inputs refines the operator. -/
theorem refines_mapChildren {g : Plan → Plan} {p : Plan} (h : ∀ c ∈ p.children, c.Refines (g c)) :
    p.Refines (p.mapChildren g) := by
  intro hp
  obtain ⟨htable, hexprs, hchildren⟩ := named_iff.1 hp
  have htable' : (p.mapChildren g).isUnresolvedTable = false := by
    rw [← htable]
    cases p <;> rfl
  refine ⟨named_iff.2 ⟨htable', ?_, ?_⟩, ?_⟩
  · rwa [expressions_mapChildren]
  · rw [children_mapChildren]
    exact List.forall_mem_map.2 fun c hc ↦ (h c hc (hchildren c hc)).1
  · cases p with
    | unresolvedTable _ _ | table _ _ | project _ _ | groupBy _ _ _ => rfl
    | filter c _ | sort c _ | limit c _ | offset c _ =>
      exact (h c List.mem_cons_self (hchildren c List.mem_cons_self)).2

/-- An operator with refined expressions refines the operator. -/
theorem refines_mapExpressions {g : Expr → Expr} {p : Plan}
    (h : ∀ e ∈ p.expressions, e.Refines (g e)) : p.Refines (p.mapExpressions g) := by
  intro hp
  obtain ⟨htable, hexprs, hchildren⟩ := named_iff.1 hp
  have htable' : (p.mapExpressions g).isUnresolvedTable = false := by
    rw [← htable]
    cases p <;> rfl
  have houtput {es : List Expr} (hes : ∀ e ∈ es, e ∈ p.expressions) :
      (outputColumns (es.map g)).toOption.map (List.map Column.unnamed) =
        (outputColumns es).toOption.map (List.map Column.unnamed) := by
    rw [toOption_outputColumns, toOption_outputColumns]
    induction es with
    | nil => rfl
    | cons e es ih =>
      rw [List.forall_mem_cons] at hes
      rw [List.map_cons, List.mapM_cons, List.mapM_cons, ih hes.2,
        (h e hes.1).shape? (hexprs e hes.1)]
  refine ⟨named_iff.2 ⟨htable', ?_, ?_⟩, ?_⟩
  · rw [expressions_mapExpressions]
    exact List.forall_mem_map.2 fun e he ↦ (h e he).named (hexprs e he)
  · rwa [children_mapExpressions]
  · cases p with
    | unresolvedTable _ _ | table _ _ | filter _ _ | sort _ _ | limit _ _ | offset _ _ => rfl
    | project _ es => exact houtput fun e he ↦ he
    | groupBy _ as gs => exact houtput fun e he ↦ List.mem_append_left gs he

/-- If a function refines every operator, then so does the transformation by the function. -/
theorem refines_transformUp {f : Plan → Plan} (hf : ∀ p, Refines p (f p)) (p : Plan) :
    p.Refines (p.transformUp f) :=
  transformUp_rel (R := Refines) .trans refines_mapChildren hf p

theorem refines_transformExpressions {g : Expr → Expr} (hg : ∀ e, Expr.Refines e (g e))
    (p : Plan) : p.Refines (p.transformExpressions g) :=
  refines_mapExpressions fun e _ ↦ Expr.refines_transformUp hg e

theorem refines_transformExpressionsUp {g : Expr → Expr} (hg : ∀ e, Expr.Refines e (g e))
    (p : Plan) : p.Refines (p.transformExpressionsUp g) :=
  refines_transformUp (refines_transformExpressions hg) p

end LogicalQuery.Plan
