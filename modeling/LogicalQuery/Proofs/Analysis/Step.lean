import LogicalQuery.Analysis.Analyzer
import Mathlib.Logic.Function.Iterate

/-!
# What a rule does at a node

Each rule of a standard analysis leaves a node as it is, or makes one definite change. There is one
lemma for each rule, and nothing else about a rule is used later on: not its guards, and not the
places where it looks names up. What all rules keep is kept by passes (`iterate_induction`).
-/

namespace LogicalQuery

/-! ### Tables -/

theorem Plan.bindTable_cases (ctx : Context) (p : Plan) :
    p.bindTable ctx = p ∨ ∃ database name schema,
      p = .unresolvedTable database name ∧
      ctx.catalog.table? (database.getD ctx.currentDatabase) name = some schema ∧
      p.bindTable ctx = .table (database.getD ctx.currentDatabase) schema := by
  unfold bindTable
  split
  next database name =>
    cases h : ctx.catalog.table? (database.getD ctx.currentDatabase) name with
    | none => exact .inl (by simp only [h])
    | some schema => exact .inr ⟨database, name, schema, rfl, h, by simp only [h]⟩
  next => exact .inl rfl

/-! ### Columns -/

theorem Plan.expandStars_cases (p : Plan) :
    p.expandStars = p ∨ ∃ input es columns,
      p = .project input es ∧ input.resolvedSchema? = some columns ∧
      p.expandStars = .project input (Expr.expandStars columns es) := by
  unfold expandStars
  split
  next input es =>
    cases h : input.resolvedSchema? with
    | none => exact .inl rfl
    | some columns => exact .inr ⟨input, es, columns, rfl, h, rfl⟩
  next => exact .inl rfl

/-- A name is bound to a column that has the name. -/
theorem Column.exists_of_bindName? {columns : List Column} {table : Option String} {name : String}
    {e : Expr} (h : bindName? columns table name = some e) :
    ∃ c index, (c, index) ∈ columns.zipIdx ∧ c.isNamed table name = true ∧ e = c.bind index := by
  unfold bindName? at h
  split at h
  next c index hfilter =>
    have hmem : (c, index) ∈ [(c, index)] := List.mem_singleton_self _
    rw [← hfilter, List.mem_filter] at hmem
    exact ⟨c, index, hmem.1, hmem.2, (Option.some.inj h).symm⟩
  next => exact nomatch h

theorem Expr.bindColumn_cases (columns : List Column) (e : Expr) :
    e.bindColumn columns = e ∨ ∃ table name c index,
      e = .column table name ∧ (c, index) ∈ columns.zipIdx ∧ c.isNamed table name = true ∧
      e.bindColumn columns = c.bind index := by
  unfold bindColumn
  split
  next table name =>
    cases h : Column.bindName? columns table name with
    | none => exact .inl rfl
    | some e' =>
      obtain ⟨c, index, hmem, hname, rfl⟩ := Column.exists_of_bindName? h
      exact .inr ⟨table, name, c, index, rfl, hmem, hname, rfl⟩
  next => exact .inl rfl

theorem Plan.bindColumns_cases (p : Plan) :
    p.bindColumns = p ∨ ∃ columns,
      p.inputSchema? = some columns ∧
      p.bindColumns = p.transformExpressions (Expr.bindColumn columns) := by
  unfold bindColumns
  cases h : p.inputSchema? with
  | none => exact .inl rfl
  | some columns => exact .inr ⟨columns, rfl, rfl⟩

/-! ### Functions -/

/-- The constructor of an aggregate function. -/
def FunctionConstructor.ofAggregate : AggregateFunction → FunctionConstructor
  | .count => count
  | .first => first

/-- The functions of the catalog, under whatever names, are the two aggregates. -/
def Catalog.OnlyAggregates (c : Catalog) : Prop :=
  ∀ name f, c.function? name = some f → f = .count ∨ f = .first

/-- Databases play no part in what the functions of a catalog are. -/
theorem Catalog.OnlyAggregates.of_functions_eq {c c' : Catalog} (h : c.OnlyAggregates)
    (heq : c'.functions = c.functions) : c'.OnlyAggregates := by
  intro name f hf
  rw [function?, heq] at hf
  exact h name f hf

theorem FunctionConstructor.exists_of_ofUnary {name : String} {g : Expr → Expr} {args : List Expr}
    {e : Expr} (h : ofUnary name g args = .ok e) : ∃ arg, args = [arg] ∧ e = g arg := by
  unfold ofUnary at h
  split at h
  next arg => exact ⟨arg, rfl, (Except.ok.inj h).symm⟩
  next => exact nomatch h

theorem Expr.bindCall_cases {catalog : Catalog} (hc : catalog.OnlyAggregates) (e : Expr) :
    e.bindCall catalog = e ∨ ∃ name arg g,
      e = .call name [arg] ∧ catalog.function? name = some (.ofAggregate g) ∧
      e.bindCall catalog = .aggregate g arg := by
  unfold bindCall
  split
  next name args =>
    cases hf : catalog.function? name with
    | none => exact .inl rfl
    | some f =>
      dsimp only
      cases hargs : f args with
      | error _ => exact .inl rfl
      | ok e' =>
        rcases hc name f hf with rfl | rfl
        · obtain ⟨arg, rfl, rfl⟩ := FunctionConstructor.exists_of_ofUnary hargs
          exact .inr ⟨name, arg, .count, rfl, hf, rfl⟩
        · obtain ⟨arg, rfl, rfl⟩ := FunctionConstructor.exists_of_ofUnary hargs
          exact .inr ⟨name, arg, .first, rfl, hf, rfl⟩
  next => exact .inl rfl

/-! ### Comparisons and casts -/

theorem Expr.coerceOperands_cases (e : Expr) :
    e.coerceOperands = e ∨ ∃ op l r s t,
      e = .comparison op l r ∧ l.dataType? = some s ∧ r.dataType? = some t ∧ s ≠ t ∧
      (DataType.common s t = t ∧ e.coerceOperands = .comparison op (.cast l t none) r ∨
        DataType.common s t = s ∧ e.coerceOperands = .comparison op l (.cast r s none)) := by
  unfold coerceOperands
  split
  next op l r =>
    split
    next hresolved =>
      split
      next s t hs ht =>
        split
        next => exact .inl rfl
        next hst =>
          refine .inr ⟨op, l, r, s, t, rfl, hs, ht, hst, ?_⟩
          rcases DataType.common_eq_or s t with h | h
          · exact .inr ⟨h, by simp [h, coerce, Ne.symm hst]⟩
          · exact .inl ⟨h, by simp [h, coerce, hst]⟩
      next => exact .inl rfl
    next => exact .inl rfl
  next => exact .inl rfl

theorem Expr.bindCast_cases (casts : CastRegistry) (e : Expr) :
    e.bindCast casts = e ∨ ∃ child source target function,
      e = .cast child target none ∧ child.dataType? = some source ∧
      casts.function source target = .ok function ∧
      e.bindCast casts = .cast child target (some ⟨source, target, function⟩) := by
  unfold bindCast
  split
  next child target =>
    split
    next =>
      cases hs : child.dataType? with
      | none => exact .inl rfl
      | some source =>
        cases hf : casts.function source target with
        | error _ => exact .inl (by simp only [hf])
        | ok function =>
          exact .inr ⟨child, source, target, function, rfl, hs, hf, by simp only [hf]⟩
    next => exact .inl rfl
  next => exact .inl rfl

/-! ### Rules -/

theorem Rule.mem_standard_iff {r : Rule} :
    r ∈ Rule.standard ↔ r = resolveTables ∨ r = resolveStar ∨ r = resolveColumns ∨
      r = resolveFunctions ∨ r = coerceComparisons ∨ r = resolveCasts := by
  simp [Rule.standard]

/-! ### Passes -/

namespace Analyzer

variable {a : Analyzer} {P : Plan → Prop} {R : Plan → Plan → Prop} {p p' : Plan}

/-- What every standard rule keeps, a pass keeps. -/
theorem pass_induction (hrules : a.rules = Rule.standard)
    (hP : ∀ r ∈ Rule.standard, ∀ p, P p → P (r.apply a.toContext p)) (h : P p) : P (a.pass p) :=
  List.foldlRecOn a.rules _ h fun p hp r hr ↦ hP r (hrules ▸ hr) p hp

/-- What every standard rule keeps, passes keep. -/
theorem iterate_induction (hrules : a.rules = Rule.standard)
    (hP : ∀ r ∈ Rule.standard, ∀ p, P p → P (r.apply a.toContext p)) (h : P p) (k : Nat) :
    P (a.pass^[k] p) := by
  induction k with
  | zero => exact h
  | succ k ih =>
    rw [Function.iterate_succ_apply']
    exact pass_induction hrules hP ih

/-- Two plans that are related, as every standard rule keeps them, are so after a pass over each. -/
theorem pass_rel (hrules : a.rules = Rule.standard)
    (hR : ∀ r ∈ Rule.standard, ∀ p p', R p p' → R (r.apply a.toContext p) (r.apply a.toContext p'))
    (h : R p p') : R (a.pass p) (a.pass p') :=
  List.foldl_rel h fun r hr p p' hp ↦ hR r (hrules ▸ hr) p p' hp

/-- Passes over each of two plans that are related, as every standard rule keeps them, go in step. -/
theorem iterate_rel (hrules : a.rules = Rule.standard)
    (hR : ∀ r ∈ Rule.standard, ∀ p p', R p p' → R (r.apply a.toContext p) (r.apply a.toContext p'))
    (h : R p p') (k : Nat) : R (a.pass^[k] p) (a.pass^[k] p') := by
  induction k with
  | zero => exact h
  | succ k ih =>
    rw [Function.iterate_succ_apply', Function.iterate_succ_apply']
    exact pass_rel hrules hR ih

end Analyzer

end LogicalQuery
