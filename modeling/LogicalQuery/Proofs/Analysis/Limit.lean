import LogicalQuery.Proofs.Analysis.Diagnosis

/-!
# The limit on passes

An analysis ends with the first pass that leaves the plan equal (`SettlesAt`), if the limit lets it
come so far, and otherwise with the plan of the last pass that the limit allows. Nothing is assumed
about the rules, which may go round in circles. If they do not look at the limit (`IgnoresLimit`),
then a greater limit only ever gives an outcome where there was none, and the plan that was reached
can be analyzed further as if the analysis had not stopped (`analyze_outcome`).
-/

namespace LogicalQuery

/-! ### The innermost operator that is not resolved -/

namespace Plan

/-- Whether the operator is not resolved, while all operators below it are. -/
def isInnermostUnresolved (p : Plan) : Bool :=
  !p.resolved && p.children.all fun c ↦ c.operators.all resolved

theorem isInnermostUnresolved_eq_false {p : Plan} (h : p.resolved = true) :
    p.isInnermostUnresolved = false := by
  rw [isInnermostUnresolved, h, Bool.not_true, Bool.false_and]

/-- An operator over one input is the innermost one that is not resolved, if its input is. -/
theorem isInnermostUnresolved_of_children {p c : Plan} (hc : p.children = [c])
    (h : p.resolved = false) : p.isInnermostUnresolved = c.resolved := by
  rw [isInnermostUnresolved, h, hc, Bool.not_false, Bool.true_and, List.all_cons, List.all_nil,
    Bool.and_true]
  cases hresolved : c.resolved with
  | true => exact List.all_eq_true.2 (all_resolved hresolved)
  | false => exact List.all_eq_false.2 ⟨c, c.self_mem_operators, by simp [hresolved]⟩

/-- **Exactly one operator of a plan that is not resolved has only resolved operators below it.** -/
theorem filter_isInnermostUnresolved {p : Plan} (h : p.resolved = false) :
    p.operators.filter isInnermostUnresolved = [p.innermostUnresolved] := by
  induction p with
  | unresolvedTable _ _ => rfl
  | table _ _ => exact nomatch h
  | project c _ ih | filter c _ ih | groupBy c _ _ ih | sort c _ ih | limit c _ ih
  | offset c _ ih =>
    rw [operators, innermostUnresolved, List.filter_cons, isInnermostUnresolved_of_children rfl h]
    cases hc : c.resolved with
    | false => exact ih hc
    | true =>
      have hbelow : c.operators.filter isInnermostUnresolved = [] :=
        List.filter_eq_nil_iff.2 fun n hn ↦
          Bool.eq_false_iff.1 (isInnermostUnresolved_eq_false (all_resolved hc n hn))
      rw [hbelow]
      rfl

end Plan

/-- The error with a limit that is greater by `n`, if it is about the limit. -/
def PlanError.addLimit (n : Nat) : PlanError → PlanError
  | limitExceeded limit last => limitExceeded (n + limit) last
  | e => e

namespace Analyzer

/-! ### The pass that settles a plan -/

/-- The pass with the number `k`, counted from one, is the first that leaves the plan equal. -/
structure SettlesAt (pass : Plan → Plan) (p : Plan) (k : Nat) : Prop where
  pos : 1 ≤ k
  beq : (pass^[k] p == pass^[k - 1] p) = true
  first : ∀ j, 1 ≤ j → j < k → (pass^[j] p == pass^[j - 1] p) = false

section

variable {pass : Plan → Plan} {p : Plan} {n k : Nat}

theorem settlesAt_succ_iff :
    SettlesAt pass p (k + 1) ↔ (pass^[k + 1] p == pass^[k] p) = true ∧
      ∀ j < k, (pass^[j + 1] p == pass^[j] p) = false := by
  constructor
  · intro h
    exact ⟨h.beq, fun j hj ↦ h.first (j + 1) (Nat.le_add_left 1 j) (Nat.succ_lt_succ hj)⟩
  · rintro ⟨hbeq, hfirst⟩
    refine ⟨Nat.le_add_left 1 k, hbeq, fun j hpos hj ↦ ?_⟩
    obtain ⟨i, rfl⟩ := Nat.exists_eq_add_of_le' hpos
    exact hfirst i (Nat.lt_of_succ_lt_succ hj)

/-- None of the first passes settles a plan if and only if each of them changes it. -/
theorem forall_not_settlesAt_iff :
    (∀ k ≤ n, ¬ SettlesAt pass p k) ↔ ∀ j < n, (pass^[j + 1] p == pass^[j] p) = false := by
  constructor
  · intro h j
    induction j using Nat.strong_induction_on with
    | h j ih =>
      intro hj
      rw [Bool.eq_false_iff]
      exact fun hbeq ↦
        h (j + 1) hj (settlesAt_succ_iff.2 ⟨hbeq, fun i hi ↦ ih i hi (hi.trans hj)⟩)
  · intro h k hk hsettles
    obtain ⟨j, rfl⟩ := Nat.exists_eq_add_of_le' hsettles.pos
    exact Bool.false_ne_true ((h j hk).symm.trans (settlesAt_succ_iff.1 hsettles).1)

/-- Passes that have changed the plan count towards the pass that settles it. -/
theorem settlesAt_iterate_iff (h : ∀ j ≤ n, ¬ SettlesAt pass p j) :
    SettlesAt pass (pass^[n] p) (k + 1) ↔ SettlesAt pass p (n + k + 1) := by
  have hiterate (j : Nat) : pass^[j] (pass^[n] p) = pass^[n + j] p := by
    rw [Nat.add_comm, Function.iterate_add_apply]
  rw [settlesAt_succ_iff, settlesAt_succ_iff]
  simp only [hiterate, ← Nat.add_assoc]
  refine and_congr_right fun _ ↦ ⟨fun hlater j hj ↦ ?_, fun hall j hj ↦ ?_⟩
  · rcases Nat.lt_or_ge j n with hn | hn
    · exact forall_not_settlesAt_iff.1 h j hn
    · obtain ⟨i, rfl⟩ := Nat.exists_eq_add_of_le hn
      exact hlater i (Nat.lt_of_add_lt_add_left hj)
  · exact hall (n + j) (Nat.add_lt_add_left hj n)

theorem SettlesAt.settle_eq {more : Nat} (h : SettlesAt pass p k) (hk : k ≤ more + 1) :
    settle pass more p = .ok (pass^[k] p) := by
  obtain ⟨j, rfl⟩ := Nat.exists_eq_add_of_le' h.pos
  obtain ⟨hbeq, hfirst⟩ := settlesAt_succ_iff.1 h
  exact settle_eq_ok_iff.2 ⟨j, Nat.le_of_succ_le_succ hk, rfl, hbeq, hfirst⟩

theorem settle_eq_error_of_not_settlesAt {more : Nat} (h : ∀ k ≤ more + 1, ¬ SettlesAt pass p k) :
    settle pass more p = .error (pass^[more + 1] p) :=
  settle_eq_error_iff.2 ⟨rfl, fun j hj ↦ forall_not_settlesAt_iff.1 h j (Nat.lt_succ_of_le hj)⟩

end

/-! ### Outcomes -/

/-- The number of passes that a limit allows: at least one. -/
theorem sub_one_add_one_eq_max (limit : Nat) : limit - 1 + 1 = max 1 limit := by omega

section

variable {a : Analyzer} {p q : Plan} {k limit : Nat}

/-- A plan that settles within the limit is analyzed to what it settles to. -/
theorem SettlesAt.analyze_eq (h : SettlesAt a.pass p k)
    (hk : k ≤ max 1 a.settings.maxIterations) : a.analyze p = validate (a.pass^[k] p) := by
  unfold analyze
  dsimp only
  rw [h.settle_eq (by rwa [sub_one_add_one_eq_max])]

/-- An analysis of a plan that does not settle within the limit gives the plan of the last pass. -/
theorem analyze_eq_limitExceeded
    (h : ∀ k ≤ max 1 a.settings.maxIterations, ¬ SettlesAt a.pass p k) :
    a.analyze p = .error (.limitExceeded a.settings.maxIterations
      (a.pass^[max 1 a.settings.maxIterations] p)) := by
  rw [← sub_one_add_one_eq_max] at h ⊢
  unfold analyze
  dsimp only
  rw [settle_eq_error_of_not_settlesAt h]

theorem validate_eq_unresolved (h : q.resolved = false) :
    validate q = .error (.unresolved q.innermostUnresolved) := by
  rw [validate, h, if_neg Bool.false_ne_true]

theorem validate_ne_limitExceeded {last : Plan} :
    validate q ≠ .error (.limitExceeded limit last) := by
  cases h : q.resolved with
  | true => simp [validate, h]
  | false => simp [validate, h]

theorem mapError_addLimit_validate (n : Nat) :
    (validate q).mapError (.addLimit n) = validate q := by
  cases h : q.resolved with
  | true => rw [validate, h]; rfl
  | false => rw [validate_eq_unresolved h]; rfl

/-- An analysis that exceeds the limit has changed the plan with every pass. -/
theorem of_analyze_eq_limitExceeded {last : Plan}
    (h : a.analyze p = .error (.limitExceeded limit last)) :
    (∀ k ≤ max 1 a.settings.maxIterations, ¬ SettlesAt a.pass p k) ∧
      last = a.pass^[max 1 a.settings.maxIterations] p := by
  have hnot (k : Nat) (hk : k ≤ max 1 a.settings.maxIterations) : ¬ SettlesAt a.pass p k :=
    fun hsettles ↦ validate_ne_limitExceeded ((hsettles.analyze_eq hk).symm.trans h)
  refine ⟨hnot, ?_⟩
  rw [analyze_eq_limitExceeded hnot, Except.error.injEq, PlanError.limitExceeded.injEq] at h
  exact h.2.symm

end

/-! ### Other limits -/

/-- The analyzer with another limit on the number of passes. -/
def withLimit (a : Analyzer) (limit : Nat) : Analyzer :=
  { a with settings := { a.settings with maxIterations := limit } }

/-- The rules do not look at the limit, such as rules that are functions of the plan alone. -/
def IgnoresLimit (a : Analyzer) : Prop :=
  ∀ r ∈ a.rules, ∀ limit, r.apply (a.withLimit limit).toContext = r.apply a.toContext

/-- The standard rules do not look at the limit. -/
theorem apply_withLimit_of_mem_standard (a : Analyzer) (limit : Nat) {r : Rule}
    (hr : r ∈ Rule.standard) : r.apply (a.withLimit limit).toContext = r.apply a.toContext := by
  rcases Rule.mem_standard_iff.1 hr with rfl | rfl | rfl | rfl | rfl | rfl <;> rfl

namespace IgnoresLimit

variable {a : Analyzer} {p : Plan} {limit limit' k : Nat}

theorem pass_withLimit (h : a.IgnoresLimit) (limit : Nat) : (a.withLimit limit).pass = a.pass := by
  funext p
  exact List.foldl_ext _ _ p fun p r hr ↦ congrFun (h r hr limit) p

theorem analyze_eq (h : a.IgnoresLimit) (hsettles : SettlesAt a.pass p k) (hk : k ≤ max 1 limit) :
    (a.withLimit limit).analyze p = validate (a.pass^[k] p) := by
  rw [← h.pass_withLimit limit] at hsettles ⊢
  exact hsettles.analyze_eq hk

theorem analyze_eq_limitExceeded (h : a.IgnoresLimit)
    (hnot : ∀ k ≤ max 1 limit, ¬ SettlesAt a.pass p k) :
    (a.withLimit limit).analyze p = .error (.limitExceeded limit (a.pass^[max 1 limit] p)) := by
  rw [← h.pass_withLimit limit] at hnot ⊢
  exact Analyzer.analyze_eq_limitExceeded hnot

/-- A greater limit gives another outcome only where the limit is exceeded. -/
theorem analyze_withLimit_of_le (h : a.IgnoresLimit) (hle : limit ≤ limit') :
    (a.withLimit limit).analyze p = (a.withLimit limit').analyze p ∨
      ∃ last, (a.withLimit limit).analyze p = .error (.limitExceeded limit last) := by
  by_cases hsettles : ∃ k ≤ max 1 limit, SettlesAt a.pass p k
  · obtain ⟨k, hk, hsettles⟩ := hsettles
    have hk' : k ≤ max 1 limit' := hk.trans (max_le_max_left 1 hle)
    exact .inl ((h.analyze_eq hsettles hk).trans (h.analyze_eq hsettles hk').symm)
  · push Not at hsettles
    exact .inr ⟨_, h.analyze_eq_limitExceeded hsettles⟩

/-- The analysis of the plan that an analysis has reached goes on where that analysis stopped. -/
theorem analyze_last (h : a.IgnoresLimit) {last : Plan} (hpos : 1 ≤ limit) (hpos' : 1 ≤ limit')
    (hlast : (a.withLimit limit).analyze p = .error (.limitExceeded limit last)) :
    ((a.withLimit limit').analyze last).mapError (.addLimit limit) =
      (a.withLimit (limit + limit')).analyze p := by
  have hmax (l : Nat) (hl : 1 ≤ l) : max 1 l = l := Nat.max_eq_right hl
  obtain ⟨hbefore, hreached⟩ := of_analyze_eq_limitExceeded hlast
  rw [h.pass_withLimit] at hbefore hreached
  replace hbefore : ∀ k ≤ limit, ¬ SettlesAt a.pass p k := hmax limit hpos ▸ hbefore
  replace hreached : last = a.pass^[limit] p := hmax limit hpos ▸ hreached
  have hiterate (k : Nat) : a.pass^[k] last = a.pass^[limit + k] p := by
    rw [hreached, Nat.add_comm, Function.iterate_add_apply]
  have hcount (k : Nat) : SettlesAt a.pass last (k + 1) ↔ SettlesAt a.pass p (limit + k + 1) := by
    rw [hreached, settlesAt_iterate_iff hbefore]
  by_cases hsettles : ∃ k < limit', SettlesAt a.pass last (k + 1)
  · obtain ⟨k, hk, hsettles⟩ := hsettles
    rw [h.analyze_eq hsettles (by omega), h.analyze_eq ((hcount k).1 hsettles) (by omega),
      mapError_addLimit_validate, hiterate, Nat.add_assoc]
  · -- No pass settles the plan that was reached, so none settles the first plan.
    have hafter : ∀ k ≤ max 1 limit', ¬ SettlesAt a.pass last k := by
      intro k hk hk'
      obtain ⟨j, rfl⟩ := Nat.exists_eq_add_of_le' hk'.pos
      exact hsettles ⟨j, by omega, hk'⟩
    have hall : ∀ k ≤ max 1 (limit + limit'), ¬ SettlesAt a.pass p k := by
      intro k hk hk'
      rcases Nat.lt_or_ge limit k with hlt | hle
      · obtain ⟨j, rfl⟩ := Nat.exists_eq_add_of_lt hlt
        exact hsettles ⟨j, by omega, (hcount j).2 hk'⟩
      · exact hbefore k hle hk'
    rw [h.analyze_eq_limitExceeded hafter, h.analyze_eq_limitExceeded hall, hmax limit' hpos',
      hmax (limit + limit') (by omega), hiterate]
    rfl

end IgnoresLimit

/-! ### A rule that counts -/

/-- The rule that counts the rows of a limit up to three. -/
def climb : Rule where
  name := "climb"
  apply _
    | .limit input n => .limit input (min 3 (n + 1))
    | p => p

/-- The standard analyzer without tables, in which limits climb. -/
def climber : Analyzer := (Analyzer.ofCatalog .standard {}).addRule climb

theorem climber_ignoresLimit : climber.IgnoresLimit := by
  intro r hr limit
  rcases List.mem_append.1 hr with hr | hr
  · exact apply_withLimit_of_mem_standard climber limit hr
  · obtain rfl := List.mem_singleton.1 hr
    rfl

theorem iterate_climber (k : Nat) :
    climber.pass^[k] (.limit (.unresolvedTable none "log") 0) =
      .limit (.unresolvedTable none "log") (min 3 k) := by
  induction k with
  | zero => rfl
  | succ k ih =>
    rw [Function.iterate_succ_apply', ih]
    show Plan.limit (.unresolvedTable none "log") (min 3 (min 3 k + 1)) = _
    rw [show min 3 (min 3 k + 1) = min 3 (k + 1) by omega]

/-- The third pass still changes the plan. -/
theorem settlesAt_climber : SettlesAt climber.pass (.limit (.unresolvedTable none "log") 0) 4 := by
  refine settlesAt_succ_iff.2 ⟨?_, fun j hj ↦ ?_⟩
  · rw [iterate_climber, iterate_climber]
    rfl
  · rw [iterate_climber, iterate_climber]
    match j with
    | 0 | 1 | 2 => rfl

/-! ### The outcome at any limit -/

/-- **What an analysis gives.** If a pass within the limit is the first that leaves the plan equal,
where a limit of zero counts as one, then the result is the plan, if it is resolved, and otherwise
an error with the one operator that is not resolved while everything below it is. If there is no
such pass, the error has the limit and the plan after the last pass. For rules that do not look at
the limit, a greater limit changes nothing but this error, and the analysis of the plan in it has
the outcome that the first analysis would have had with the sum of both limits. -/
theorem analyze_outcome (a : Analyzer) (p : Plan) :
    (∀ k ≤ max 1 a.settings.maxIterations, SettlesAt a.pass p k →
      ((a.pass^[k] p).resolved = true → a.analyze p = .ok (a.pass^[k] p)) ∧
      ((a.pass^[k] p).resolved = false →
        ∃ n, (a.pass^[k] p).operators.filter Plan.isInnermostUnresolved = [n] ∧
          a.analyze p = .error (.unresolved n))) ∧
    ((∀ k ≤ max 1 a.settings.maxIterations, ¬ SettlesAt a.pass p k) →
      a.analyze p = .error (.limitExceeded a.settings.maxIterations
        (a.pass^[max 1 a.settings.maxIterations] p))) ∧
    (a.IgnoresLimit →
      (∀ limit limit', limit ≤ limit' →
        (a.withLimit limit).analyze p = (a.withLimit limit').analyze p ∨
          ∃ last, (a.withLimit limit).analyze p = .error (.limitExceeded limit last)) ∧
      ∀ limit limit' last, 1 ≤ limit → 1 ≤ limit' →
        (a.withLimit limit).analyze p = .error (.limitExceeded limit last) →
        ((a.withLimit limit').analyze last).mapError (.addLimit limit) =
          (a.withLimit (limit + limit')).analyze p) := by
  refine ⟨fun k hk hsettles ↦ ?_, analyze_eq_limitExceeded, fun h ↦ ?_⟩
  · rw [hsettles.analyze_eq hk]
    refine ⟨fun hresolved ↦ ?_, fun hresolved ↦ ?_⟩
    · rw [validate, if_pos hresolved]
    · exact ⟨_, Plan.filter_isInnermostUnresolved hresolved, validate_eq_unresolved hresolved⟩
  · exact ⟨fun _ _ ↦ h.analyze_withLimit_of_le, fun _ _ _ ↦ h.analyze_last⟩

/-- With a limit of four passes, the fourth finds that the table is missing. With a limit of two,
the analysis stops halfway, and the analysis of the plan that it has reached finds the same. -/
theorem analyze_outcome_climber :
    let log : Plan := .unresolvedTable none "log"
    (climber.IgnoresLimit ∧ SettlesAt (climber.withLimit 4).pass (.limit log 0) 4 ∧
      (climber.withLimit 2).analyze (.limit log 0) = .error (.limitExceeded 2 (.limit log 2))) ∧
      (climber.withLimit 4).analyze (.limit log 0) = .error (.unresolved log) ∧
      ((climber.withLimit 2).analyze (.limit log 2)).mapError (PlanError.addLimit 2) =
        .error (.unresolved log) := by
  intro log
  have hpass := climber_ignoresLimit.pass_withLimit
  have hsettles := settlesAt_climber
  have hlimit : (climber.withLimit 2).analyze (.limit log 0) =
      .error (.limitExceeded 2 (.limit log 2)) := by
    rw [climber_ignoresLimit.analyze_eq_limitExceeded, iterate_climber]
    · rfl
    · exact forall_not_settlesAt_iff.2 fun j hj ↦
        (settlesAt_succ_iff.1 hsettles).2 j (hj.trans_le (by decide))
  rw [← hpass 4] at hsettles
  obtain ⟨n, hn, hunresolved⟩ := ((analyze_outcome (climber.withLimit 4) _).1 4 le_rfl hsettles).2
    (by rw [hpass, iterate_climber]; rfl)
  rw [hpass, iterate_climber] at hn
  obtain rfl : log = n := List.singleton_inj.1 hn
  refine ⟨⟨climber_ignoresLimit, hsettles, hlimit⟩, hunresolved, ?_⟩
  rw [← hunresolved]
  exact ((analyze_outcome climber _).2.2 climber_ignoresLimit).2 2 2 _ (by decide) (by decide)
    hlimit

end Analyzer

end LogicalQuery
