import LogicalQuery.Proofs.Plan.Shape

/-!
# The parts of an operator

An operator is made of its inputs, its expressions and the rest (`Kind`): what it does, with its
table, its count, or the directions of its keys. Plans are read by way of their parts and rewritten
by other functions, so it matters that nothing escapes: an operator is determined by its parts
(`eq_iff_parts`), and each rewriting changes one part and keeps the others. What `resolved` and
`schema` read of a plan are the parts of its operators (`resolved_iff_all`, `schema_producer`).
-/

namespace LogicalQuery.Plan

/-! ### Kinds -/

/-- What an operator is, apart from its inputs and the expressions in it. -/
inductive Kind where
  | unresolvedTable (database : Option String) (name : String)
  | table (database : String) (schema : TableSchema)
  | project
  | filter
  /-- The number of expressions that are put out, which come before those that group. -/
  | groupBy (outputs : Nat)
  /-- For each key, whether small values come first and whether nulls do. -/
  | sort (directions : List (Bool × Bool))
  | limit (count : Nat)
  | offset (count : Nat)

/-- The kind of the operator at the root of a plan. -/
def kind : Plan → Kind
  | unresolvedTable d n => .unresolvedTable d n
  | table d s => .table d s
  | project _ _ => .project
  | filter _ _ => .filter
  | groupBy _ as _ => .groupBy as.length
  | sort _ ks => .sort (ks.map fun k ↦ (k.ascending, k.nullsFirst))
  | limit _ n => .limit n
  | offset _ n => .offset n

@[simp]
theorem kind_mapChildren (f : Plan → Plan) (p : Plan) : (p.mapChildren f).kind = p.kind := by
  cases p <;> rfl

@[simp]
theorem kind_mapExpressions (g : Expr → Expr) (p : Plan) : (p.mapExpressions g).kind = p.kind := by
  cases p <;> simp [mapExpressions, kind]

/-- Sort keys are put together again from their directions and their expressions. -/
theorem zipWith_parts (ks : List SortKey) :
    (ks.map fun k ↦ (k.ascending, k.nullsFirst)).zipWith (fun d e ↦ ⟨e, d.1, d.2⟩)
      (ks.map (·.expr)) = ks := by
  rw [List.zipWith_map, List.zipWith_self]
  exact List.map_id' ks

/-- **A plan is determined by the parts of its root.** Nothing of an operator is left out by its
kind, its inputs and its expressions. -/
theorem eq_iff_parts {p q : Plan} :
    p = q ↔ p.kind = q.kind ∧ p.children = q.children ∧ p.expressions = q.expressions := by
  refine ⟨fun h ↦ h ▸ ⟨rfl, rfl, rfl⟩, fun ⟨hkind, hchildren, hexprs⟩ ↦ ?_⟩
  cases p with
  | unresolvedTable d n =>
    cases q with
    | unresolvedTable d' n' =>
      obtain ⟨rfl, rfl⟩ := Kind.unresolvedTable.inj hkind
      rfl
    | _ => exact nomatch hkind
  | table d s =>
    cases q with
    | table d' s' =>
      obtain ⟨rfl, rfl⟩ := Kind.table.inj hkind
      rfl
    | _ => exact nomatch hkind
  | project c es =>
    cases q with
    | project c' es' => rw [List.singleton_inj.1 hchildren, show es = es' from hexprs]
    | _ => exact nomatch hkind
  | filter c e =>
    cases q with
    | filter c' e' => rw [List.singleton_inj.1 hchildren, List.singleton_inj.1 hexprs]
    | _ => exact nomatch hkind
  | groupBy c as gs =>
    cases q with
    | groupBy c' as' gs' =>
      obtain ⟨has, hgs⟩ := List.append_inj hexprs (Kind.groupBy.inj hkind)
      rw [List.singleton_inj.1 hchildren, has, hgs]
    | _ => exact nomatch hkind
  | sort c ks =>
    cases q with
    | sort c' ks' =>
      have hkeys : ks = ks' := by
        rw [← zipWith_parts ks, Kind.sort.inj hkind, show ks.map (·.expr) = _ from hexprs]
        exact zipWith_parts ks'
      rw [List.singleton_inj.1 hchildren, hkeys]
    | _ => exact nomatch hkind
  | limit c n =>
    cases q with
    | limit c' n' => rw [List.singleton_inj.1 hchildren, Kind.limit.inj hkind]
    | _ => exact nomatch hkind
  | offset c n =>
    cases q with
    | offset c' n' => rw [List.singleton_inj.1 hchildren, Kind.offset.inj hkind]
    | _ => exact nomatch hkind

/-! ### What is read of a plan -/

/-- Whether a plan is resolved is read from the tables and the expressions of its operators. -/
theorem resolved_iff_all {p : Plan} :
    p.resolved = true ↔ p.All fun n ↦
      n.isUnresolvedTable = false ∧ ∀ e ∈ n.expressions, e.resolved = true := by
  induction p using children_induction with
  | node p ih =>
    rw [resolved_iff, all_iff, and_assoc]
    exact and_congr_right fun _ ↦ and_congr_right fun _ ↦ forall₂_congr ih

/-- The operator that makes the columns of a plan: the projection or the grouping nearest to the
root, or else the table. -/
def producer : Plan → Plan
  | p@(unresolvedTable _ _) | p@(table _ _) | p@(project _ _) | p@(groupBy _ _ _) => p
  | filter p _ | sort p _ | limit p _ | offset p _ => p.producer

theorem schema_producer (p : Plan) : p.producer.schema = p.schema := by
  induction p with
  | unresolvedTable _ _ | table _ _ | project _ _ | groupBy _ _ _ => rfl
  | filter _ _ ih | sort _ _ ih | limit _ _ ih | offset _ _ ih => exact ih

theorem producer_mem_operators (p : Plan) : p.producer ∈ p.operators := by
  induction p with
  | unresolvedTable _ _ | table _ _ | project _ _ | groupBy _ _ _ => exact self_mem_operators _
  | filter _ _ ih | sort _ _ ih | limit _ _ ih | offset _ _ ih => exact List.mem_cons_of_mem _ ih

/-! ### Transforming the expressions of a plan -/

section

variable (g : Expr → Expr) (p : Plan)

theorem kind_transformExpressionsUp : (p.transformExpressionsUp g).kind = p.kind := by
  rw [transformExpressionsUp_eq, transformExpressions, kind_mapExpressions, kind_mapChildren]

theorem expressions_transformExpressionsUp :
    (p.transformExpressionsUp g).expressions = p.expressions.map (Expr.transformUp g) := by
  rw [transformExpressionsUp_eq, transformExpressions, expressions_mapExpressions,
    expressions_mapChildren]

theorem operators_transformExpressionsUp :
    (p.transformExpressionsUp g).operators = p.operators.map (transformExpressionsUp g) :=
  operators_eq_map (children_transformExpressionsUp g) p

/-- **Every operator of a plan keeps its kind and has each of its expressions transformed.** -/
theorem parts_transformExpressionsUp :
    ((p.transformExpressionsUp g).operators.map fun n ↦ (n.kind, n.expressions)) =
      p.operators.map fun n ↦ (n.kind, n.expressions.map (Expr.transformUp g)) := by
  rw [operators_transformExpressionsUp, List.map_map]
  refine List.map_congr_left fun n _ ↦ ?_
  rw [Function.comp_apply, kind_transformExpressionsUp, expressions_transformExpressionsUp]

/-- Whether a transformed plan is resolved is read from the transformed expressions. -/
theorem resolved_transformExpressionsUp_iff :
    (p.transformExpressionsUp g).resolved = true ↔ p.All fun n ↦
      n.isUnresolvedTable = false ∧ ∀ e ∈ n.expressions, (e.transformUp g).resolved = true := by
  have htable (n : Plan) :
      (n.transformExpressionsUp g).isUnresolvedTable = n.isUnresolvedTable := by
    cases n <;> rfl
  rw [resolved_iff_all, All, operators_transformExpressionsUp, List.forall_mem_map]
  simp only [htable, expressions_transformExpressionsUp, List.forall_mem_map, All]

/-- The columns of a transformed plan are made by the transformed expressions. -/
theorem schema_transformExpressionsUp :
    (p.transformExpressionsUp g).schema = match p.producer with
      | project _ es => outputColumns (es.map (Expr.transformUp g))
      | groupBy _ as _ => outputColumns (as.map (Expr.transformUp g))
      | n => n.schema := by
  induction p with
  | unresolvedTable _ _ | table _ _ | project _ _ | groupBy _ _ _ => rfl
  | filter _ _ ih | sort _ _ ih | limit _ _ ih | offset _ _ ih => exact ih

end

end LogicalQuery.Plan
