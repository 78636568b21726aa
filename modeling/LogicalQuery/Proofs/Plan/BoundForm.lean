import LogicalQuery.Proofs.Expr.BoundForm

/-!
# Bound forms of plans

A plan *binds to* a chain of the same operators over the table that its name stands for. The
expressions of each operator bind over the input of the bound form, in their lists and in their
order, and only the stars of a projection stand for several expressions. Counts, directions and
places of nulls stay.
-/

namespace LogicalQuery

/-- The key sorts by the bound form of the expression, in the same way. -/
structure SortKey.BindsTo (ctx : Context) (c : Plan) (k k' : SortKey) : Prop where
  expr : k.expr.BindsTo ctx c k'.expr
  ascending : k'.ascending = k.ascending
  nullsFirst : k'.nullsFirst = k.nullsFirst

namespace Plan

/-- The first plan binds to the second one. -/
inductive BindsTo (ctx : Context) : Plan → Plan → Prop
  /-- The table is looked up in the database that is named, or else in the current one. -/
  | unresolvedTable {database : Option String} {name : String} {schema : TableSchema}
      (h : ctx.catalog.table? (database.getD ctx.currentDatabase) name = some schema) :
    BindsTo ctx (unresolvedTable database name)
      (table (database.getD ctx.currentDatabase) schema)
  | table (database : String) (schema : TableSchema) :
    BindsTo ctx (table database schema) (table database schema)
  | project {p p' : Plan} {es es' : List Expr} (h : BindsTo ctx p p')
      (hes : Expr.ExpandsTo ctx p' es es') : BindsTo ctx (project p es) (project p' es')
  | filter {p p' : Plan} {e e' : Expr} (h : BindsTo ctx p p') (he : e.BindsTo ctx p' e') :
    BindsTo ctx (filter p e) (filter p' e')
  | groupBy {p p' : Plan} {as as' gs gs' : List Expr} (h : BindsTo ctx p p')
      (has : List.Forall₂ (Expr.BindsTo ctx p') as as')
      (hgs : List.Forall₂ (Expr.BindsTo ctx p') gs gs') :
    BindsTo ctx (groupBy p as gs) (groupBy p' as' gs')
  | sort {p p' : Plan} {ks ks' : List SortKey} (h : BindsTo ctx p p')
      (hks : List.Forall₂ (SortKey.BindsTo ctx p') ks ks') :
    BindsTo ctx (sort p ks) (sort p' ks')
  | limit {p p' : Plan} (n : Nat) (h : BindsTo ctx p p') : BindsTo ctx (limit p n) (limit p' n)
  | offset {p p' : Plan} (n : Nat) (h : BindsTo ctx p p') :
    BindsTo ctx (offset p n) (offset p' n)

variable {ctx : Context}

/-! ### Elaboration -/

/-- A projection of elaborated expressions over an elaborated input elaborates the projection. -/
theorem Elaborates.project {p p' : Plan} {es es' : List Expr} (h : p.Elaborates p')
    (hes : (∀ e ∈ es, e.named = true) → List.Forall₂ Expr.Elaborates es es') :
    (Plan.project p es).Elaborates (Plan.project p' es') := by
  have houtputs (hp : (Plan.project p es).named = true) :=
    Expr.Elaborates.forall₂ (hes (named_iff.1 hp).2.1) (named_iff.1 hp).2.1
  refine ⟨fun hp ↦ ⟨named_iff.2 ⟨rfl, (houtputs hp).1, ?_⟩, ?_⟩, fun hp ↦ (houtputs hp).2.2⟩
  · exact List.forall_mem_singleton.2 (h.refines ((named_iff.1 hp).2.2 p List.mem_cons_self)).1
  · rw [columns?, columns?, schema, schema, toOption_outputColumns, toOption_outputColumns,
      (houtputs hp).2.1]

/-- A grouping by elaborated expressions over an elaborated input elaborates the grouping. -/
theorem Elaborates.groupBy {p p' : Plan} {as as' gs gs' : List Expr} (h : p.Elaborates p')
    (has : List.Forall₂ Expr.Elaborates as as') (hgs : List.Forall₂ Expr.Elaborates gs gs') :
    (Plan.groupBy p as gs).Elaborates (Plan.groupBy p' as' gs') := by
  have hnamed (hp : (Plan.groupBy p as gs).named = true) := List.forall_mem_append.1 (named_iff.1 hp).2.1
  have houtputs (hp : (Plan.groupBy p as gs).named = true) := Expr.Elaborates.forall₂ has (hnamed hp).1
  refine ⟨fun hp ↦ ⟨named_iff.2 ⟨rfl, List.forall_mem_append.2 ⟨(houtputs hp).1, ?_⟩, ?_⟩, ?_⟩,
    fun hp ↦ (houtputs hp).2.2⟩
  · exact (Expr.Elaborates.forall₂ hgs (hnamed hp).2).1
  · exact List.forall_mem_singleton.2 (h.refines ((named_iff.1 hp).2.2 p List.mem_cons_self)).1
  · rw [columns?, columns?, schema, schema, toOption_outputColumns, toOption_outputColumns,
      (houtputs hp).2.1]

/-- An operator that passes on the columns of its input elaborates another one of its kind, if its
input does and its expressions are named once those of the other one are. -/
theorem Elaborates.of_schema_eq {p p' n n' : Plan} (h : p.Elaborates p')
    (hchildren : n.children = [p]) (hchildren' : n'.children = [p'])
    (hcolumns : n.columns? = p.columns?) (hcolumns' : n'.columns? = p'.columns?)
    (houtputs : n.outputs = p.outputs) (houtputs' : n'.outputs = p'.outputs)
    (hexprs : (∀ e ∈ n.expressions, e.named = true) → ∀ e ∈ n'.expressions, e.named = true) :
    n.Elaborates n' := by
  have hinput (hn : n.named = true) : p.named = true :=
    (named_iff.1 hn).2.2 p (hchildren ▸ List.mem_cons_self)
  have htable : n'.isUnresolvedTable = false := by
    cases n' with
    | unresolvedTable _ _ => exact nomatch hchildren'
    | _ => rfl
  refine ⟨fun hn ↦ ⟨named_iff.2 ⟨htable, hexprs (named_iff.1 hn).2.1, ?_⟩, ?_⟩, fun hn ↦ ?_⟩
  · rw [hchildren']
    exact List.forall_mem_singleton.2 (h.refines (hinput hn)).1
  · rw [hcolumns, hcolumns', (h.refines (hinput hn)).2]
  · rw [houtputs, houtputs', h.outputs (hinput hn)]

/-- Bound forms are elaborations. -/
theorem BindsTo.elaborates {p p' : Plan} (h : p.BindsTo ctx p') : p.Elaborates p' := by
  induction h with
  | unresolvedTable _ =>
    exact ⟨fun hp ↦ absurd (named_iff.1 hp).1 Bool.noConfusion,
      fun hp ↦ absurd (named_iff.1 hp).1 Bool.noConfusion⟩
  | table _ _ => exact .refl _
  | project _ hes ih =>
    refine ih.project fun hnamed ↦ ?_
    exact (hes.forall₂ fun e he ↦ Expr.isStar_eq_false_of_named (hnamed e he)).imp
      fun _ _ ↦ Expr.BindsTo.elaborates
  | groupBy _ has hgs ih =>
    exact ih.groupBy (has.imp fun _ _ ↦ Expr.BindsTo.elaborates)
      (hgs.imp fun _ _ ↦ Expr.BindsTo.elaborates)
  | filter _ he ih =>
    refine ih.of_schema_eq rfl rfl rfl rfl rfl rfl fun hnamed ↦ ?_
    exact List.forall_mem_singleton.2 (he.elaborates.named (hnamed _ List.mem_cons_self))
  | sort _ hks ih =>
    refine ih.of_schema_eq rfl rfl rfl rfl rfl rfl fun hnamed ↦ ?_
    have hexprs := List.forall₂_map_left_iff.2 (List.forall₂_map_right_iff.2 <|
      hks.imp fun _ _ hk ↦ hk.expr.elaborates)
    exact (Expr.Elaborates.forall₂ hexprs hnamed).1
  | limit _ _ ih | offset _ _ ih => exact ih.of_schema_eq rfl rfl rfl rfl rfl rfl fun hnamed ↦ hnamed

/-! ### Settled plans -/

namespace IsSettled

variable {p : Plan}

theorem of_mem_children (h : p.IsSettled) {c : Plan} (hc : c ∈ p.children) : c.IsSettled :=
  ⟨(resolved_iff.1 h.resolved).2.2 c hc, h.exprs.children hc⟩

/-- The expressions of a settled plan are their own bound forms over any input. -/
theorem bindsTo_of_mem (h : p.IsSettled) (c : Plan) {e : Expr} (he : e ∈ p.expressions) :
    e.BindsTo ctx c e :=
  Expr.bindsTo_self (.inl (h.resolved_of_mem (self_mem_operators p) he)) (h.exprs.self e he)

/-- A settled plan is its own bound form. -/
theorem bindsTo (h : p.IsSettled) : p.BindsTo ctx p := by
  induction p with
  | unresolvedTable _ _ => exact nomatch h.resolved
  | table d s => exact .table d s
  | project c es ih =>
    refine .project (ih (h.of_mem_children List.mem_cons_self)) ?_
    refine Expr.expandsTo_self fun e he ↦ ⟨?_, h.bindsTo_of_mem c he⟩
    exact Expr.isStar_eq_false_of_named
      (Expr.named_of_resolved (h.resolved_of_mem (self_mem_operators _) he))
  | filter c e ih =>
    exact .filter (ih (h.of_mem_children List.mem_cons_self)) (h.bindsTo_of_mem c List.mem_cons_self)
  | groupBy c as gs ih =>
    exact .groupBy (ih (h.of_mem_children List.mem_cons_self))
      (List.forall₂_same.2 fun _ he ↦ h.bindsTo_of_mem c (List.mem_append_left gs he))
      (List.forall₂_same.2 fun _ he ↦ h.bindsTo_of_mem c (List.mem_append_right as he))
  | sort c ks ih =>
    refine .sort (ih (h.of_mem_children List.mem_cons_self)) (List.forall₂_same.2 fun k hk ↦ ?_)
    exact ⟨h.bindsTo_of_mem c (List.mem_map_of_mem hk), rfl, rfl⟩
  | limit c n ih => exact .limit n (ih (h.of_mem_children List.mem_cons_self))
  | offset c n ih => exact .offset n (ih (h.of_mem_children List.mem_cons_self))

end IsSettled

end Plan

end LogicalQuery
