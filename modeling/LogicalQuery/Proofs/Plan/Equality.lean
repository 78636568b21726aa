import LogicalQuery.Proofs.Expr.Equality
import LogicalQuery.Proofs.Plan.Pending

/-!
# Equality of plans

Like expressions, two plans are equal when they are the same up to the functions of bound casts, and
equal plans have equally many steps left.
-/

namespace LogicalQuery.Plan

/-- The plan with the identity for the function of each bound cast. -/
def erase (p : Plan) : Plan := p.transformUp (mapExpressions Expr.erase)

theorem erase_eq (p : Plan) : p.erase = (p.mapChildren erase).mapExpressions Expr.erase :=
  transformUp_eq _ p

/-- Sort keys are equal if and only if they are the same without the functions of bound casts. -/
theorem keys_beq_iff_erase_eq {ks ks' : List SortKey} :
    (ks == ks') = true ↔ (ks.map fun k ↦ { k with expr := k.expr.erase }) =
      ks'.map fun k ↦ { k with expr := k.expr.erase } := by
  induction ks generalizing ks' with
  | nil => cases ks' <;> simp
  | cons k ks ih =>
    cases ks' with
    | nil => simp
    | cons k' ks' =>
      have hk : (k == k') = (k.expr == k'.expr && k.ascending == k'.ascending &&
        k.nullsFirst == k'.nullsFirst) := rfl
      rw [List.cons_beq_cons, Bool.and_eq_true, ih, hk]
      simp [Expr.beq_iff_erase_eq, and_assoc]

/-- Equal plans are the same without the functions of their bound casts. -/
theorem erase_eq_of_beq (p p' : Plan) : beq p p' = true → p.erase = p'.erase := by
  refine beq.induct (fun p p' ↦ beq p p' = true → p.erase = p'.erase)
    ?unresolvedTable ?table ?project ?filter ?groupBy ?sort ?limit ?offset ?other p p'
  case unresolvedTable | table =>
    intros
    simp_all [beq]
  case project =>
    intro p es p' es' ih h
    rw [beq, Bool.and_eq_true] at h
    rw [erase_eq, erase_eq]
    simp only [mapChildren, mapExpressions, ih h.1, Expr.beq_iff_map_erase_eq.1 h.2]
  case filter =>
    intro p e p' e' ih h
    rw [beq, Bool.and_eq_true] at h
    rw [erase_eq, erase_eq]
    simp only [mapChildren, mapExpressions, ih h.1, Expr.erase_eq_of_beq _ _ h.2]
  case groupBy =>
    intro p as gs p' as' gs' ih h
    rw [beq, Bool.and_eq_true, Bool.and_eq_true] at h
    rw [erase_eq, erase_eq]
    simp only [mapChildren, mapExpressions, ih h.1.1, Expr.beq_iff_map_erase_eq.1 h.1.2,
      Expr.beq_iff_map_erase_eq.1 h.2]
  case sort =>
    intro p ks p' ks' ih h
    rw [beq, Bool.and_eq_true] at h
    rw [erase_eq, erase_eq]
    simp only [mapChildren, mapExpressions, ih h.1, keys_beq_iff_erase_eq.1 h.2]
  case limit | offset =>
    intro p n p' n' ih h
    rw [beq, Bool.and_eq_true, beq_iff_eq] at h
    rw [erase_eq, erase_eq]
    simp only [mapChildren, mapExpressions, ih h.1, h.2]
  case other =>
    intros
    simp_all [beq]

/-- Plans that are the same without the functions of their bound casts are equal. -/
theorem beq_of_erase_eq {p p' : Plan} (h : p.erase = p'.erase) : beq p p' = true := by
  induction p generalizing p' with
  | unresolvedTable d n =>
    cases p' with
    | unresolvedTable d' n' =>
      obtain ⟨rfl, rfl⟩ := unresolvedTable.inj h
      exact beq_refl _
    | _ => cases h
  | table d s =>
    cases p' with
    | table d' s' =>
      obtain ⟨rfl, rfl⟩ := table.inj h
      exact beq_refl _
    | _ => cases h
  | project p es ih =>
    cases p' with
    | project p' es' =>
      obtain ⟨hp, hes⟩ := project.inj h
      rw [beq, ih hp, Expr.beq_iff_map_erase_eq.2 hes, Bool.and_self]
    | _ => cases h
  | filter p e ih =>
    cases p' with
    | filter p' e' =>
      obtain ⟨hp, he⟩ := filter.inj h
      rw [beq, ih hp, Expr.beq_iff_erase_eq.2 he, Bool.and_self]
    | _ => cases h
  | groupBy p as gs ih =>
    cases p' with
    | groupBy p' as' gs' =>
      obtain ⟨hp, has, hgs⟩ := groupBy.inj h
      rw [beq, ih hp, Expr.beq_iff_map_erase_eq.2 has, Expr.beq_iff_map_erase_eq.2 hgs,
        Bool.and_self, Bool.and_self]
    | _ => cases h
  | sort p ks ih =>
    cases p' with
    | sort p' ks' =>
      obtain ⟨hp, hks⟩ := sort.inj h
      rw [beq, ih hp, keys_beq_iff_erase_eq.2 hks, Bool.and_self]
    | _ => cases h
  | limit p n ih =>
    cases p' with
    | limit p' n' =>
      obtain ⟨hp, hn⟩ := limit.inj h
      rw [beq, ih hp, hn, beq_self_eq_true, Bool.and_self]
    | _ => cases h
  | offset p n ih =>
    cases p' with
    | offset p' n' =>
      obtain ⟨hp, hn⟩ := offset.inj h
      rw [beq, ih hp, hn, beq_self_eq_true, Bool.and_self]
    | _ => cases h

/-- **Plans are equal if and only if they are the same without the functions of their bound
casts.** -/
theorem beq_iff_erase_eq {p p' : Plan} : (p == p') = true ↔ p.erase = p'.erase :=
  ⟨erase_eq_of_beq p p', beq_of_erase_eq⟩

instance : PartialEquivBEq Plan where
  symm h := beq_iff_erase_eq.2 (beq_iff_erase_eq.1 h).symm
  trans h h' := beq_iff_erase_eq.2 ((beq_iff_erase_eq.1 h).trans (beq_iff_erase_eq.1 h'))

@[simp]
theorem children_erase (p : Plan) : p.erase.children = p.children.map erase := by
  rw [erase_eq, children_mapExpressions, children_mapChildren]

@[simp]
theorem pending_erase (p : Plan) : p.erase.pending = p.pending := by
  induction p using children_induction with
  | node p ih =>
    have hchildren : (p.children.map erase).map pending = p.children.map pending := by
      rw [List.map_map]
      exact List.map_congr_left ih
    have hroot : p.erase.pendingAtRoot = p.pendingAtRoot := by
      rw [erase_eq]
      cases p <;> simp [mapChildren, mapExpressions, pendingAtRoot, expressions, Expr.pendingAll,
        Function.comp_def]
    rw [pending_eq, hroot, erase_eq, children_mapExpressions, children_mapChildren, hchildren,
      ← pending_eq]

@[simp]
theorem resolved_erase (p : Plan) : p.erase.resolved = p.resolved := by
  induction p with
  | unresolvedTable _ _ | table _ _ => rfl
  | project _ _ ih | filter _ _ ih | groupBy _ _ _ ih | sort _ _ ih | limit _ _ ih
  | offset _ _ ih =>
    rw [erase_eq]
    simp [mapChildren, mapExpressions, resolved, ih, Function.comp_def]

/-- Of equal plans, both are resolved or none is. -/
theorem resolved_eq_of_beq {p p' : Plan} (h : (p == p') = true) : p.resolved = p'.resolved := by
  rw [← resolved_erase p, erase_eq_of_beq p p' h, resolved_erase]

/-- As many steps are left in equal plans. -/
theorem pending_eq_of_beq {p p' : Plan} (h : (p == p') = true) : p.pending = p'.pending := by
  rw [← pending_erase p, erase_eq_of_beq p p' h, pending_erase]

/-- A plan that advances to an equal plan does not change. -/
theorem Advances.eq_of_beq {p p' : Plan} (h : p.Advances p') (heq : (p' == p) = true) :
    p' = p := by
  rcases h with h | hlt
  · exact h
  · exact absurd (pending_eq_of_beq heq) hlt.ne

end LogicalQuery.Plan
