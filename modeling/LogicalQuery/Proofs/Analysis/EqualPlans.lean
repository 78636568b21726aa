import LogicalQuery.Proofs.Analysis.Composition
import LogicalQuery.Proofs.Analysis.Limit

/-!
# Equality as a test of convergence

An analysis stops when a plan stays equal, and equality does not see the functions of bound casts.
That is sound: equality is an equivalence, passes make equal plans of equal plans, so equal plans
settle with the same pass, and their analyses cannot be told apart (`analyze_sameOutcome`).
-/

namespace LogicalQuery

/-! ### Equivalences -/

theorem Expr.beq_equivalence : Equivalence fun e e' : Expr ↦ (e == e') = true :=
  ⟨fun e ↦ beq_self_eq_true e, BEq.symm, BEq.trans⟩

theorem Plan.beq_equivalence : Equivalence fun p p' : Plan ↦ (p == p') = true :=
  ⟨fun p ↦ beq_self_eq_true p, BEq.symm, BEq.trans⟩

namespace Analyzer

/-! ### Equal outcomes -/

/-- Two analyses give equal plans, or fail for the same reason with equal plans. -/
inductive SameOutcome : Except PlanError Plan → Except PlanError Plan → Prop
  | ok {q q' : Plan} (h : (q == q') = true) : SameOutcome (.ok q) (.ok q')
  | unresolved {n n' : Plan} (h : (n == n') = true) :
      SameOutcome (.error (.unresolved n)) (.error (.unresolved n'))
  | limitExceeded (limit : Nat) {last last' : Plan} (h : (last == last') = true) :
      SameOutcome (.error (.limitExceeded limit last)) (.error (.limitExceeded limit last'))

/-- Of equal plans, both are accepted, or both are refused for equal operators. -/
theorem sameOutcome_validate {q q' : Plan} (h : (q == q') = true) :
    SameOutcome (validate q) (validate q') := by
  have hresolved := Plan.resolved_eq_of_beq h
  cases hq : q.resolved with
  | true =>
    rw [hq] at hresolved
    rw [validate, validate, if_pos hq, if_pos hresolved.symm]
    exact .ok h
  | false =>
    rw [hq] at hresolved
    rw [validate_eq_unresolved hq, validate_eq_unresolved hresolved.symm]
    exact .unresolved (Plan.innermostUnresolved_beq h)

variable {pass : Plan → Plan} {p p' : Plan}

/-- Equal plans settle with the same pass, if passes respect equality. -/
theorem SettlesAt.of_beq (hpass : ∀ k, Plan.RespectsBeq pass^[k]) (h : (p == p') = true) {k : Nat}
    (hsettles : SettlesAt pass p k) : SettlesAt pass p' k := by
  have hstays (j : Nat) : (pass^[j] p == pass^[j - 1] p) = (pass^[j] p' == pass^[j - 1] p') :=
    (BEq.congr_left (hpass j p p' h)).trans (BEq.congr_right (hpass (j - 1) p p' h))
  exact ⟨hsettles.pos, hstays k ▸ hsettles.beq, fun j hpos hj ↦ hstays j ▸ hsettles.first j hpos hj⟩

/-- **Equality is sound as a test of convergence.** Equality of expressions and of plans is an
equivalence, whatever literals they hold. Let an analyzer have the standard rules, and let the
constructors of its catalog give equal results for equal arguments. Then the analyses of two equal
plans give equal plans, or end at equal unresolved operators, or exceed the limit with equal plans.
-/
theorem analyze_sameOutcome :
    (Equivalence fun e e' : Expr ↦ (e == e') = true) ∧
    (Equivalence fun p p' : Plan ↦ (p == p') = true) ∧
    ∀ a : Analyzer, a.rules = Rule.standard → a.catalog.RespectsBeq → ∀ p p' : Plan,
      (p == p') = true → SameOutcome (a.analyze p) (a.analyze p') := by
  refine ⟨Expr.beq_equivalence, Plan.beq_equivalence, fun a hrules hc p p' h ↦ ?_⟩
  have hpass := respectsBeq_iterate hrules hc
  by_cases hsettles : ∃ k ≤ max 1 a.settings.maxIterations, SettlesAt a.pass p k
  · obtain ⟨k, hk, hsettles⟩ := hsettles
    rw [hsettles.analyze_eq hk, (hsettles.of_beq hpass h).analyze_eq hk]
    exact sameOutcome_validate (hpass k p p' h)
  · push Not at hsettles
    have hsettles' (k : Nat) (hk : k ≤ max 1 a.settings.maxIterations) : ¬ SettlesAt a.pass p' k :=
      fun h' ↦ hsettles k hk (h'.of_beq hpass (BEq.symm h))
    rw [analyze_eq_limitExceeded hsettles, analyze_eq_limitExceeded hsettles']
    exact .limitExceeded _ (hpass _ p p' h)

/-- A NaN as a text, by two functions, is compared with a column that there is not. The analyses
fail with the two comparisons, which are equal. -/
theorem analyze_sameOutcome_nan :
    let nan : Expr := .literal (.float (Binary64.nan true)) .float
    let text (f : CastFunction) : Expr := .cast nan .string (some ⟨.float, .string, f⟩)
    let events : Plan := .table "default" ⟨"events", [⟨"id", .integer, false, "events"⟩]⟩
    let named (f : CastFunction) : Plan :=
      .filter events (.comparison .eq (text f) (.column none "name"))
    let a := Analyzer.ofCatalog .standard {}
    let empty : CastFunction := fun _ ↦ .ok (.string "")
    (a.rules = Rule.standard ∧ a.catalog.RespectsBeq ∧ (named .ok == named empty) = true) ∧
      SameOutcome (a.analyze (named .ok)) (a.analyze (named empty)) := by
  intro nan text events named a empty
  have hc : a.catalog.RespectsBeq := Catalog.standard_onlyAggregates.respectsBeq
  have hbeq : (named .ok == named empty) = true := by decide
  exact ⟨⟨rfl, hc, hbeq⟩, analyze_sameOutcome.2.2 a rfl hc _ _ hbeq⟩

end Analyzer

end LogicalQuery
