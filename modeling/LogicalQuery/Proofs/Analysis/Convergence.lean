import LogicalQuery.Proofs.Analysis.Progress
import LogicalQuery.Proofs.Plan.Equality
import Mathlib.Logic.Function.Iterate

/-!
# Convergence

`settle` stops at the first pass that leaves the plan equal (`settle_eq_ok_iff`), and fails only
if there is none within its limit (`settle_eq_error_iff`). Passes that advance every plan lead to
such a pass within as many steps as are left in the plan at the beginning, and for the standard
rules this number is bounded by the size of the expressions of the plan.
-/

namespace LogicalQuery.Analyzer

/-! ### Repeating a pass -/

variable {pass : Plan → Plan}

/-- A plan settles to the result of the first pass that leaves the plan equal. -/
theorem settle_eq_ok_iff {more : Nat} {p q : Plan} :
    settle pass more p = .ok q ↔
      ∃ k ≤ more, q = pass^[k + 1] p ∧ (q == pass^[k] p) = true ∧
        ∀ j < k, (pass^[j + 1] p == pass^[j] p) = false := by
  induction more generalizing p with
  | zero =>
    simp only [settle, Nat.le_zero_eq, exists_eq_left, Function.iterate_succ_apply,
      Function.iterate_zero_apply, Nat.not_lt_zero, false_imp_iff, implies_true, and_true]
    constructor
    · intro h
      split at h
      next heq => exact Except.ok.inj h ▸ ⟨rfl, heq⟩
      next => exact nomatch h
    · rintro ⟨rfl, heq⟩
      rw [if_pos heq]
  | succ more ih =>
    rw [settle]
    -- The pass decides at once, or the rest of the passes starts from its result.
    cases heq : pass p == p with
    | true =>
      rw [if_pos rfl, Except.ok.injEq]
      constructor
      · rintro rfl
        exact ⟨0, Nat.zero_le _, rfl, heq, fun j hj ↦ absurd hj (Nat.not_lt_zero j)⟩
      · rintro ⟨k, -, rfl, -, hfirst⟩
        cases k with
        | zero => rfl
        | succ k => exact absurd ((hfirst 0 k.succ_pos).symm.trans heq) Bool.false_ne_true
    | false =>
      rw [if_neg Bool.false_ne_true, ih]
      constructor
      · rintro ⟨k, hk, rfl, hlast, hfirst⟩
        refine ⟨k + 1, Nat.succ_le_succ hk, rfl, hlast, fun j hj ↦ ?_⟩
        cases j with
        | zero => exact heq
        | succ j => exact hfirst j (Nat.lt_of_succ_lt_succ hj)
      · rintro ⟨k, hk, rfl, hlast, hfirst⟩
        cases k with
        | zero => exact absurd (heq.symm.trans hlast) Bool.false_ne_true
        | succ k =>
          exact ⟨k, Nat.le_of_succ_le_succ hk, rfl, hlast,
            fun j hj ↦ hfirst (j + 1) (Nat.succ_lt_succ hj)⟩

/-- A plan settles to the result of one pass, if the next pass leaves that as it is. -/
theorem settle_eq_ok_of_pass_eq {more : Nat} {p q : Plan} (hp : pass p = q) (hq : pass q = q)
    (hmore : 1 ≤ more) : settle pass more p = .ok q := by
  refine settle_eq_ok_iff.2 ?_
  cases hbeq : pass p == p with
  | true => exact ⟨0, Nat.zero_le _, hp.symm, hp ▸ hbeq, fun j hj ↦ absurd hj (Nat.not_lt_zero j)⟩
  | false =>
    refine ⟨1, hmore, ?_, ?_, fun j hj ↦ ?_⟩
    · rw [Function.iterate_succ_apply, Function.iterate_one, hp, hq]
    · rw [Function.iterate_one, hp]
      exact beq_self_eq_true q
    · obtain rfl := Nat.lt_one_iff.1 hj
      exact hbeq

/-- A plan does not settle if no pass within the limit leaves it equal. -/
theorem settle_eq_error_iff {more : Nat} {p q : Plan} :
    settle pass more p = .error q ↔
      q = pass^[more + 1] p ∧ ∀ j ≤ more, (pass^[j + 1] p == pass^[j] p) = false := by
  induction more generalizing p with
  | zero =>
    simp only [settle, Nat.le_zero_eq, forall_eq, Function.iterate_succ_apply,
      Function.iterate_zero_apply]
    cases heq : pass p == p <;> simp [eq_comm]
  | succ more ih =>
    rw [settle]
    cases heq : pass p == p with
    | true =>
      rw [if_pos rfl]
      constructor
      · intro h
        exact nomatch h
      · rintro ⟨-, hall⟩
        exact absurd ((hall 0 (Nat.zero_le _)).symm.trans heq) Bool.false_ne_true
    | false =>
      rw [if_neg Bool.false_ne_true, ih]
      refine and_congr_right fun _ ↦ ⟨fun hall j hj ↦ ?_, fun hall j hj ↦ ?_⟩
      · cases j with
        | zero => exact heq
        | succ j => exact hall j (Nat.le_of_succ_le_succ hj)
      · exact hall (j + 1) (Nat.succ_le_succ hj)

/-- Passes that advance reach a plan that stays, after at most as many passes as there are steps
left in the plan at the beginning. -/
theorem exists_iterate_eq (hpass : ∀ p, Plan.Advances p (pass p)) (p : Plan) :
    ∃ k ≤ p.pending, pass^[k + 1] p = pass^[k] p := by
  induction hn : p.pending using Nat.strong_induction_on generalizing p with
  | h n ih =>
    rcases hpass p with heq | hlt
    · exact ⟨0, Nat.zero_le n, heq⟩
    · obtain ⟨k, hk, heq⟩ := ih _ (hn ▸ hlt) (pass p) rfl
      exact ⟨k + 1, by omega, heq⟩

end LogicalQuery.Analyzer

namespace LogicalQuery

theorem Catalog.standard_onlyAggregates : Catalog.standard.OnlyAggregates := by
  intro name f hf
  simp only [function?, NameTable.find?, standard, List.lookup_cons, List.lookup_nil] at hf
  split at hf
  next => exact .inl (Option.some.inj hf).symm
  next =>
    split at hf
    next => exact .inr (Option.some.inj hf).symm
    next => cases hf

namespace Analyzer

theorem analyze_eq_ok_iff {a : Analyzer} {p q : Plan} :
    a.analyze p = .ok q ↔
      settle a.pass (a.settings.maxIterations - 1) p = .ok q ∧ q.resolved = true := by
  unfold analyze
  dsimp only
  cases settle a.pass (a.settings.maxIterations - 1) p with
  | error q' => simp
  | ok q' =>
    show validate q' = .ok q ↔ _
    rw [validate]
    cases hresolved : q'.resolved with
    | true =>
      rw [if_pos rfl, Except.ok.injEq, Except.ok.injEq]
      constructor
      · rintro rfl
        exact ⟨rfl, hresolved⟩
      · exact And.left
    | false =>
      rw [if_neg Bool.false_ne_true, Except.ok.injEq]
      constructor
      · intro h
        exact nomatch h
      · rintro ⟨rfl, h⟩
        exact absurd (hresolved.symm.trans h) Bool.false_ne_true

/-- An analysis that finds nothing to bind any more, and something unbound, gives the operator nearest
to the table that is not resolved. -/
theorem analyze_eq_unresolved_iff {a : Analyzer} {p n : Plan} :
    a.analyze p = .error (.unresolved n) ↔
      ∃ q, settle a.pass (a.settings.maxIterations - 1) p = .ok q ∧ q.resolved = false ∧
        q.innermostUnresolved = n := by
  unfold analyze
  dsimp only
  cases settle a.pass (a.settings.maxIterations - 1) p with
  | error q' => simp
  | ok q' =>
    show validate q' = .error (.unresolved n) ↔ _
    rw [validate]
    cases hresolved : q'.resolved with
    | true => simp [hresolved]
    | false => simp [hresolved]

/-- A plan that settles is the result of passes, and the next pass leaves it not only equal but
unchanged. -/
theorem iterate_of_settle {a : Analyzer} (hrules : a.rules = Rule.standard)
    (hc : a.catalog.OnlyAggregates) {more : Nat} {p q : Plan} (h : settle a.pass more p = .ok q) :
    (∃ k, q = a.pass^[k] p) ∧ a.pass q = q := by
  obtain ⟨k, -, hq, hbeq, -⟩ := settle_eq_ok_iff.1 h
  have hlast : q = a.pass (a.pass^[k] p) := by rw [hq, Function.iterate_succ_apply']
  -- The last pass has advanced to an equal plan, so it has not changed the functions of casts.
  have hadvances := advances_pass hrules hc (a.pass^[k] p)
  rw [← hlast] at hadvances
  have hsame := hadvances.eq_of_beq hbeq
  refine ⟨⟨k + 1, hq⟩, ?_⟩
  rw [← hsame] at hlast
  exact hlast.symm

/-- An analyzed plan is the result of passes, it is resolved, and the next pass leaves it not only
equal but unchanged. -/
theorem iterate_of_analyze {a : Analyzer} (hrules : a.rules = Rule.standard)
    (hc : a.catalog.OnlyAggregates) {p q : Plan} (h : a.analyze p = .ok q) :
    (∃ k, q = a.pass^[k] p) ∧ a.pass q = q ∧ q.resolved = true := by
  obtain ⟨hsettle, hresolved⟩ := analyze_eq_ok_iff.1 h
  obtain ⟨hiterate, hpass⟩ := iterate_of_settle hrules hc hsettle
  exact ⟨hiterate, hpass, hresolved⟩

/-- **Convergence of the standard rules.** Let the functions of the catalog be the aggregates. Then,
whatever the casts and the plan, a pass that leaves the plan equal is among the first
`2 + 2 * p.exprCount`, and an analysis that is allowed this many passes does not run out of
them. -/
theorem exists_pass_beq (a : Analyzer) (hrules : a.rules = Rule.standard)
    (hc : a.catalog.OnlyAggregates) (p : Plan) :
    (∃ k, k + 1 ≤ 2 + 2 * p.exprCount ∧ (a.pass^[k + 1] p == a.pass^[k] p) = true) ∧
      (2 + 2 * p.exprCount ≤ a.settings.maxIterations →
        ∀ limit q, a.analyze p ≠ .error (.limitExceeded limit q)) := by
  obtain ⟨k, hk, heq⟩ := exists_iterate_eq (advances_pass hrules hc) p
  have hpending := p.pending_le
  have hbeq : (a.pass^[k + 1] p == a.pass^[k] p) = true := by rw [heq]; exact beq_self_eq_true _
  refine ⟨⟨k, by omega, hbeq⟩, fun hlimit limit q h ↦ ?_⟩
  unfold analyze at h
  dsimp only at h
  split at h
  next r hr =>
    rw [validate] at h
    split at h
    next => exact nomatch h
    next => exact nomatch h
  next r hr =>
    have hne := (settle_eq_error_iff.1 hr).2 k (by omega)
    exact absurd (hne.symm.trans hbeq) Bool.false_ne_true

/-- A filter on the equality of an integer with the value of a cast that is bound for another type.
Its expressions have four nodes, and ten passes are enough. -/
theorem exists_pass_beq_filter :
    let a := Analyzer.ofCatalog .standard { maxIterations := 10 }
    let bound : BoundCast := ⟨.string, .bigInteger, .ok⟩
    let seven : Expr := .cast (.literal (.integer 7) .integer) .bigInteger bound
    let p : Plan := .filter (.table "default" ⟨"events", [⟨"id", .integer, false, "events"⟩]⟩)
      (.comparison .eq (.column none "id") seven)
    a.rules = Rule.standard ∧ a.catalog.OnlyAggregates ∧
      2 + 2 * p.exprCount ≤ a.settings.maxIterations ∧
      ∀ limit q, a.analyze p ≠ .error (.limitExceeded limit q) :=
  ⟨rfl, Catalog.standard_onlyAggregates, by decide,
    (exists_pass_beq _ rfl Catalog.standard_onlyAggregates _).2 (by decide)⟩

end Analyzer

end LogicalQuery
