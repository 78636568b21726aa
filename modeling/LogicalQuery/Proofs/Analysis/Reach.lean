import LogicalQuery.Proofs.Analysis.Composition
import LogicalQuery.Proofs.Plan.Parts

/-!
# What the rules reach

Plans and expressions are read through their children and expressions, and rewritten through other
functions, which are written out for every kind of operator and expression as well. The two agree
(`rebuilt_parts`): what one reads is what the other one replaces, and the rest stays. So a rule
comes to every operator of a plan (`Rule.operators_apply`), and there to every expression
(`Plan.isReached`). There is none that would keep a plan from being resolved, or have a part
in its columns, and yet be out of reach of the rules.
-/

namespace LogicalQuery

/-- What the standard rules make of the expressions of an operator, over the inputs to which the
rule is applied already. The rules for tables, and those for stars outside of projections, let them
be. Names and stars are replaced once the columns of the inputs are known. -/
structure Plan.IsReached (ctx : Context) (p : Plan) : Prop where
  tables : (Rule.resolveTables.apply ctx p).expressions = p.expressions
  stars : (Rule.resolveStar.apply ctx p).expressions =
    match p.kind, (Rule.resolveStar.apply ctx p).inputSchema? with
    | .project, some columns => Expr.expandStars columns p.expressions
    | _, _ => p.expressions
  columns : (Rule.resolveColumns.apply ctx p).expressions =
    match (Rule.resolveColumns.apply ctx p).inputSchema? with
    | some columns => p.expressions.map (Expr.transformUp (Expr.bindColumn columns))
    | none => p.expressions
  functions : (Rule.resolveFunctions.apply ctx p).expressions =
    p.expressions.map (Expr.transformUp (Expr.bindCall ctx.catalog))
  comparisons : (Rule.coerceComparisons.apply ctx p).expressions =
    p.expressions.map (Expr.transformUp Expr.coerceOperands)
  casts : (Rule.resolveCasts.apply ctx p).expressions =
    p.expressions.map (Expr.transformUp (Expr.bindCast ctx.casts))

namespace Plan

theorem expressions_bindTable (ctx : Context) (p : Plan) :
    (p.bindTable ctx).expressions = p.expressions := by
  rcases bindTable_cases ctx p with h | ⟨_, _, _, rfl, -, h⟩ <;> rw [h]
  rfl

theorem expressions_expandStars (p : Plan) :
    p.expandStars.expressions =
      match p.kind, p.inputSchema? with
      | .project, some columns => Expr.expandStars columns p.expressions
      | _, _ => p.expressions := by
  cases p with
  | project input es =>
    have hinput : (project input es).inputSchema? = input.resolvedSchema? := by
      rw [inputSchema?, children, List.mapM_cons, List.mapM_nil]
      cases input.resolvedSchema? <;> simp
    rw [hinput, expandStars]
    cases input.resolvedSchema? <;> rfl
  | _ => rfl

theorem expressions_bindColumns (p : Plan) :
    p.bindColumns.expressions =
      match p.inputSchema? with
      | some columns => p.expressions.map (Expr.transformUp (Expr.bindColumn columns))
      | none => p.expressions := by
  rw [bindColumns]
  cases p.inputSchema? with
  | none => rfl
  | some columns => exact expressions_mapExpressions _ p

/-- **Every expression of an operator is reached.** -/
theorem isReached (ctx : Context) (p : Plan) : p.IsReached ctx where
  tables := by
    dsimp only [Rule.resolveTables]
    rw [transformUp_eq, expressions_bindTable, expressions_mapChildren]
  stars := by
    dsimp only [Rule.resolveStar]
    rw [transformUp_eq, inputSchema?_congr (children_expandStars _), expressions_expandStars,
      kind_mapChildren, expressions_mapChildren]
  columns := by
    dsimp only [Rule.resolveColumns]
    rw [transformUp_eq, inputSchema?_congr (children_bindColumns _), expressions_bindColumns,
      expressions_mapChildren]
  functions := expressions_transformExpressionsUp _ p
  comparisons := expressions_transformExpressionsUp _ p
  casts := expressions_transformExpressionsUp _ p

end Plan

/-- **A rule comes to every operator of a plan.** -/
theorem Rule.operators_apply (ctx : Context) {r : Rule} (hr : r ∈ Rule.standard) (p : Plan) :
    (r.apply ctx p).operators = p.operators.map (r.apply ctx) :=
  Plan.operators_eq_map (children_apply ctx hr) p

/-- **Reading and rewriting agree on every node.** Rebuilding an operator over other inputs replaces
its children and keeps the rest, rebuilding it with other expressions replaces these and keeps the
rest, and there is nothing else in an operator than its kind, its children and its expressions. So
each operator of a plan whose expressions are transformed keeps its kind and has each of its
expressions transformed, in their order, and these are what decides whether the plan is resolved,
and what makes its columns. A rule comes to every operator, and there to every expression.
Rebuilding an expression replaces its children. -/
theorem rebuilt_parts (ctx : Context) :
    (∀ (p : Plan) (g : Plan → Plan),
      (p.mapChildren g).children = p.children.map g ∧
      (p.mapChildren g).expressions = p.expressions ∧ (p.mapChildren g).kind = p.kind) ∧
    (∀ (p : Plan) (f : Expr → Expr),
      (p.mapExpressions f).expressions = p.expressions.map f ∧
      (p.mapExpressions f).children = p.children ∧ (p.mapExpressions f).kind = p.kind) ∧
    (∀ p q : Plan,
      p = q ↔ p.kind = q.kind ∧ p.children = q.children ∧ p.expressions = q.expressions) ∧
    (∀ p : Plan,
      (p.resolved = true ↔ p.All fun n ↦
        n.isUnresolvedTable = false ∧ ∀ e ∈ n.expressions, e.resolved = true) ∧
      p.producer ∈ p.operators ∧ p.producer.schema = p.schema) ∧
    (∀ (p : Plan) (f : Expr → Expr),
      ((p.transformExpressionsUp f).operators.map fun n ↦ (n.kind, n.expressions)) =
        (p.operators.map fun n ↦ (n.kind, n.expressions.map (Expr.transformUp f))) ∧
      ((p.transformExpressionsUp f).resolved = true ↔ p.All fun n ↦
        n.isUnresolvedTable = false ∧ ∀ e ∈ n.expressions, (e.transformUp f).resolved = true) ∧
      (p.transformExpressionsUp f).schema =
        match p.producer with
        | .project _ es => Plan.outputColumns (es.map (Expr.transformUp f))
        | .groupBy _ as _ => Plan.outputColumns (as.map (Expr.transformUp f))
        | n => n.schema) ∧
    (∀ r ∈ Rule.standard, ∀ p : Plan, (r.apply ctx p).operators = p.operators.map (r.apply ctx)) ∧
    (∀ p : Plan, p.IsReached ctx) ∧
    ∀ (e : Expr) (h : Expr → Expr), (e.mapChildren h).children = e.children.map h := by
  refine ⟨fun p g ↦ ⟨p.children_mapChildren g, p.expressions_mapChildren g, p.kind_mapChildren g⟩,
    fun p f ↦
      ⟨p.expressions_mapExpressions f, p.children_mapExpressions f, p.kind_mapExpressions f⟩,
    fun _ _ ↦ Plan.eq_iff_parts, fun p ↦ ?_, fun p f ↦ ?_,
    fun r hr ↦ Rule.operators_apply ctx hr, Plan.isReached ctx, fun e h ↦ e.children_mapChildren h⟩
  · exact ⟨Plan.resolved_iff_all, p.producer_mem_operators, p.schema_producer⟩
  · exact ⟨p.parts_transformExpressionsUp f, p.resolved_transformExpressionsUp_iff f,
      p.schema_transformExpressionsUp f⟩

/-- Columns are bound in a sort over a grouping: in what the grouping puts out, in what it groups by
and in the key, which keeps its directions. -/
theorem rebuilt_parts_grouping :
    let ctx := (Analyzer.ofCatalog .standard {}).toContext
    let events : Plan := .table "default" ⟨"events", [⟨"id", .integer, false, "events"⟩]⟩
    let rows : Expr := .renamed (.aggregate .count .star) "rows"
    let grouped (e : Expr) : Plan := .groupBy events [rows, e] [e]
    let p (e e' : Expr) : Plan := .limit (.sort (grouped e) [⟨e', false, true⟩]) 3
    let name : Expr := .column none "id"
    let field (i : Nat) : Expr := .field ⟨i, "events", "id", .integer, false⟩
    Rule.resolveColumns ∈ Rule.standard ∧
      (Rule.resolveColumns.apply ctx (p name name)).operators =
        (p name name).operators.map (Rule.resolveColumns.apply ctx) ∧
      Rule.resolveColumns.apply ctx (p name name) = p (field 0) (field 1) := by
  have hmem : Rule.resolveColumns ∈ Rule.standard := by simp [Rule.standard]
  obtain ⟨-, -, -, -, -, hrules, -⟩ := rebuilt_parts (Analyzer.ofCatalog .standard {}).toContext
  exact ⟨hmem, hrules _ hmem _, rfl⟩

end LogicalQuery
