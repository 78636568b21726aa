import LogicalQuery.Proofs.Analysis.Congruence
import LogicalQuery.Proofs.Plan.BoundForm
import Mathlib.Data.Nat.Find

/-!
# The analysis of an input

No rule lets an operator influence its input: a rule applied to a plan does to the input of the plan
what it does to the input alone (`Rule.children_apply`). So the passes over a plan and over its input
go in step, the input settles no later than the plan, and from then on stays equal
(`exists_settle_input`). The analysis of a plan therefore contains that of its input
(`analyze_input`).
-/

namespace LogicalQuery

/-! ### Inputs -/

namespace Plan

theorem children_eq_of_mem {p c : Plan} (h : c ∈ p.children) : p.children = [c] := by
  cases p with
  | unresolvedTable _ _ | table _ _ => exact absurd h List.not_mem_nil
  | project _ _ | filter _ _ | groupBy _ _ _ | sort _ _ | limit _ _ | offset _ _ =>
    rw [List.mem_singleton.1 h, children]

theorem children_bindTable (ctx : Context) (p : Plan) : (p.bindTable ctx).children = p.children := by
  rcases bindTable_cases ctx p with h | ⟨_, _, _, rfl, -, h⟩ <;> rw [h]
  rfl

theorem children_expandStars (p : Plan) : p.expandStars.children = p.children := by
  rcases expandStars_cases p with h | ⟨_, _, _, rfl, -, h⟩ <;> rw [h]
  rfl

theorem children_bindColumns (p : Plan) : p.bindColumns.children = p.children := by
  rcases bindColumns_cases p with h | ⟨_, -, h⟩ <;> rw [h]
  exact children_mapExpressions _ p

/-- The columns of the inputs depend on the inputs alone. -/
theorem inputSchema?_congr {p q : Plan} (h : p.children = q.children) :
    p.inputSchema? = q.inputSchema? := by
  rw [inputSchema?, h, inputSchema?]

/-- The unresolved operator nearest to the table is that of the input, if the input is not
resolved. -/
theorem innermostUnresolved_eq {p c : Plan} (hc : p.children = [c]) (h : c.resolved = false) :
    p.innermostUnresolved = c.innermostUnresolved := by
  cases p with
  | unresolvedTable _ _ | table _ _ => exact nomatch hc
  | project _ _ | filter _ _ | groupBy _ _ _ | sort _ _ | limit _ _ | offset _ _ =>
    obtain rfl := List.singleton_inj.1 hc
    rw [innermostUnresolved, h, if_neg Bool.false_ne_true]

theorem innermostUnresolved_erase (p : Plan) :
    p.erase.innermostUnresolved = p.innermostUnresolved.erase := by
  induction p with
  | unresolvedTable _ _ | table _ _ => rfl
  | project c _ ih | filter c _ ih | groupBy c _ _ ih | sort c _ ih | limit c _ ih
  | offset c _ ih =>
    rw [erase_eq]
    simp only [mapChildren, mapExpressions, innermostUnresolved, resolved_erase]
    split
    · rfl
    · exact ih

/-- In equal plans, the same operator is the unresolved one nearest to the table. -/
theorem innermostUnresolved_beq {p p' : Plan} (h : (p == p') = true) :
    (p.innermostUnresolved == p'.innermostUnresolved) = true := by
  rw [beq_iff_erase_eq] at h ⊢
  rw [← innermostUnresolved_erase, h, innermostUnresolved_erase]

end Plan

/-- **A rule does to an input what it does to the input alone.** -/
theorem Rule.children_apply (ctx : Context) {r : Rule} (hr : r ∈ Rule.standard) (p : Plan) :
    (r.apply ctx p).children = p.children.map (r.apply ctx) := by
  rcases mem_standard_iff.1 hr with rfl | rfl | rfl | rfl | rfl | rfl
  · exact Plan.children_transformUp (Plan.children_bindTable ctx) p
  · exact Plan.children_transformUp Plan.children_expandStars p
  · exact Plan.children_transformUp Plan.children_bindColumns p
  · exact Plan.children_transformExpressionsUp _ p
  · exact Plan.children_transformExpressionsUp _ p
  · exact Plan.children_transformExpressionsUp _ p

namespace Analyzer

variable {a : Analyzer}

/-! ### Passes in step -/

theorem children_pass (hrules : a.rules = Rule.standard) (p : Plan) :
    (a.pass p).children = p.children.map a.pass := by
  have hfold (rs : List Rule) (hrs : ∀ r ∈ rs, r ∈ Rule.standard) (p : Plan) :
      (rs.foldl (fun p r ↦ r.apply a.toContext p) p).children =
        p.children.map fun c ↦ rs.foldl (fun p r ↦ r.apply a.toContext p) c := by
    induction rs generalizing p with
    | nil => exact (List.map_id _).symm
    | cons r rs ih =>
      rw [List.forall_mem_cons] at hrs
      rw [List.foldl_cons, ih hrs.2, Rule.children_apply a.toContext hrs.1, List.map_map]
      rfl
  exact hfold a.rules (fun _ hr ↦ hrules ▸ hr) p

/-- **Passes over a plan do to its input what they do to the input alone.** -/
theorem children_iterate (hrules : a.rules = Rule.standard) (k : Nat) (p : Plan) :
    (a.pass^[k] p).children = p.children.map a.pass^[k] := by
  induction k with
  | zero => exact (List.map_id _).symm
  | succ k ih =>
    rw [Function.iterate_succ_apply', children_pass hrules, ih, List.map_map,
      Function.iterate_succ']

/-- A plan that a pass leaves equal stays equal under more passes. -/
theorem iterate_beq (hrules : a.rules = Rule.standard) (hc : a.catalog.RespectsBeq) {p : Plan}
    (h : (a.pass p == p) = true) (k : Nat) : (a.pass^[k] p == p) = true := by
  induction k with
  | zero => exact beq_self_eq_true p
  | succ k ih =>
    have hk := respectsBeq_iterate hrules hc k _ _ h
    rw [← Function.iterate_succ_apply] at hk
    exact BEq.trans hk ih

/-- A plan settles with the first pass that leaves it equal, at the latest after `k` passes if the
next one does. -/
theorem exists_settle_of_beq {pass : Plan → Plan} {more k : Nat} {p : Plan} (hk : k ≤ more)
    (h : (pass^[k + 1] p == pass^[k] p) = true) :
    ∃ j ≤ k, settle pass more p = .ok (pass^[j + 1] p) ∧
      (pass^[j + 1] p == pass^[j] p) = true := by
  have hexists : ∃ j, (pass^[j + 1] p == pass^[j] p) = true := ⟨k, h⟩
  have hle := Nat.find_min' hexists h
  refine ⟨Nat.find hexists, hle, settle_eq_ok_iff.2 ?_, Nat.find_spec hexists⟩
  exact ⟨_, hle.trans hk, rfl, Nat.find_spec hexists,
    fun j hj ↦ Bool.eq_false_iff.2 (Nat.find_min hexists hj)⟩

/-- **An input settles no later than the plan.** The input of the settled plan is the settled input
after more passes, which leave it equal. -/
theorem exists_settle_input (hrules : a.rules = Rule.standard) (hc : a.catalog.RespectsBeq)
    {P p Q : Plan} (hp : p ∈ P.children) {more : Nat} (h : settle a.pass more P = .ok Q) :
    ∃ q k, settle a.pass more p = .ok q ∧ Q.children = [a.pass^[k] q] ∧
      (a.pass^[k] q == q) = true := by
  obtain ⟨k, hk, rfl, hbeq, -⟩ := settle_eq_ok_iff.1 h
  have hchildren (i : Nat) : (a.pass^[i] P).children = [a.pass^[i] p] := by
    rw [children_iterate hrules, Plan.children_eq_of_mem hp, List.map_singleton]
  -- Where a pass leaves the plan equal, it leaves the input equal.
  have hinput : (a.pass^[k + 1] p == a.pass^[k] p) = true := by
    have hparts := congrArg Plan.children (Plan.beq_iff_erase_eq.1 hbeq)
    rw [Plan.children_erase, Plan.children_erase, hchildren, hchildren] at hparts
    exact Plan.beq_iff_erase_eq.2 (List.singleton_inj.1 hparts)
  obtain ⟨j, hj, hsettle, hstays⟩ := exists_settle_of_beq hk hinput
  refine ⟨a.pass^[j + 1] p, k - j, hsettle, ?_, iterate_beq hrules hc ?_ _⟩
  · rw [hchildren, ← Function.iterate_add_apply, show k - j + (j + 1) = k + 1 by omega]
  · have hnext := respectsBeq_pass hrules hc _ _ hstays
    rwa [← Function.iterate_succ_apply' a.pass j p] at hnext

/-- The analysis of a plan contains the analysis of its input. -/
theorem analyze_input_of_ok (hrules : a.rules = Rule.standard) (hc : a.catalog.RespectsBeq)
    {P p Q : Plan} (hp : p ∈ P.children) (h : a.analyze P = .ok Q) :
    ∃ q, Q.children = [q] ∧ a.analyze p = .ok q := by
  obtain ⟨q, k, hsettle, hchildren, hbeq⟩ :=
    exists_settle_input hrules hc hp (analyze_eq_ok_iff.1 h).1
  have hresolved := (isSettled_of_analyze hrules h).of_mem_children
    (hchildren ▸ List.mem_cons_self) |>.resolved
  have hanalyze : a.analyze p = .ok q :=
    analyze_eq_ok_iff.2 ⟨hsettle, (Plan.resolved_eq_of_beq hbeq).symm.trans hresolved⟩
  -- The input is settled, so the additional passes have not even changed functions of casts.
  have hfixed := pass_eq_of_isSettled hrules (isSettled_of_analyze hrules hanalyze)
  exact ⟨q, by rw [hchildren, Function.iterate_fixed hfixed], hanalyze⟩

/-- If a plan settles with something unresolved in its input, then the input settles with an equal
unresolved operator nearest to the table. -/
theorem innermostUnresolved_input {Q q q' : Plan} (hchildren : Q.children = [q'])
    (hbeq : (q' == q) = true) (h : q.resolved = false) :
    Q.resolved = false ∧ (q.innermostUnresolved == Q.innermostUnresolved) = true := by
  have hunresolved := (Plan.resolved_eq_of_beq hbeq).trans h
  refine ⟨?_, ?_⟩
  · rw [Bool.eq_false_iff]
    intro hQ
    have := (Plan.resolved_iff.1 hQ).2.2 q' (hchildren ▸ List.mem_cons_self)
    exact nomatch this.symm.trans hunresolved
  · rw [Plan.innermostUnresolved_eq hchildren hunresolved, BEq.comm]
    exact Plan.innermostUnresolved_beq hbeq

/-- **Analysis is compositional.** Let the constructors of the catalog respect equality, and let `p`
be the input of `P`. The result of an analysis of `P` has the result for `p` as its input. If the
analysis of `P` ends at an unresolved operator, then that of `p` succeeds or ends at the same operator,
up to the functions of casts that were bound in different passes. And if the analysis of `p` ends at
an unresolved operator, then so does that of `P`, unless it runs out of passes. -/
theorem analyze_input (hrules : a.rules = Rule.standard) (hc : a.catalog.RespectsBeq) {P p : Plan}
    (hp : p ∈ P.children) :
    (∀ Q, a.analyze P = .ok Q → ∃ q, Q.children = [q] ∧ a.analyze p = .ok q) ∧
    (∀ n, a.analyze P = .error (.unresolved n) →
      (∃ q, a.analyze p = .ok q) ∨
        ∃ n', a.analyze p = .error (.unresolved n') ∧ (n' == n) = true) ∧
    (∀ n, a.analyze p = .error (.unresolved n) →
      (∃ n', a.analyze P = .error (.unresolved n') ∧ (n' == n) = true) ∨
        ∃ limit Q, a.analyze P = .error (.limitExceeded limit Q)) := by
  refine ⟨fun Q h ↦ analyze_input_of_ok hrules hc hp h, fun n h ↦ ?_, fun n h ↦ ?_⟩
  · obtain ⟨Q, hQ, -, rfl⟩ := analyze_eq_unresolved_iff.1 h
    obtain ⟨q, k, hq, hchildren, hbeq⟩ := exists_settle_input hrules hc hp hQ
    cases hresolved : q.resolved with
    | true => exact .inl ⟨q, analyze_eq_ok_iff.2 ⟨hq, hresolved⟩⟩
    | false =>
      exact .inr ⟨_, analyze_eq_unresolved_iff.2 ⟨q, hq, hresolved, rfl⟩,
        (innermostUnresolved_input hchildren hbeq hresolved).2⟩
  · obtain ⟨q, hq, hresolved, rfl⟩ := analyze_eq_unresolved_iff.1 h
    cases hQ : settle a.pass (a.settings.maxIterations - 1) P with
    | error Q =>
      refine .inr ⟨a.settings.maxIterations, Q, ?_⟩
      unfold analyze
      dsimp only
      rw [hQ]
    | ok Q =>
      obtain ⟨q', k, hq', hchildren, hbeq⟩ := exists_settle_input hrules hc hp hQ
      obtain rfl := Except.ok.inj (hq.symm.trans hq')
      obtain ⟨hunresolved, hinnermost⟩ := innermostUnresolved_input hchildren hbeq hresolved
      exact .inl ⟨_, analyze_eq_unresolved_iff.2 ⟨Q, hQ, hunresolved, rfl⟩, BEq.symm hinnermost⟩

/-- The analysis of three events of number seven contains that of all of them, in which the number is
widened. -/
theorem analyze_input_limit :
    let events : Plan := .table "default" ⟨"events", [⟨"id", .integer, false, "events"⟩]⟩
    let seven : Expr := .literal (.bigInteger 7) .bigInteger
    let widen : BoundCast := ⟨.integer, .bigInteger,
      (Cast.ofInteger .bigInteger fun n ↦ .ok (.bigInteger n.toInt64)).function⟩
    let id : Expr := .cast (.field ⟨0, "events", "id", .integer, false⟩) .bigInteger (some widen)
    let a := Analyzer.ofCatalog .standard { maxIterations := 2 }
    let p : Plan := .filter events (.comparison .eq (.column none "ID") seven)
    let q : Plan := .filter events (.comparison .eq id seven)
    (a.rules = Rule.standard ∧ a.catalog.RespectsBeq ∧ p ∈ (Plan.limit p 3).children ∧
      a.analyze (.limit p 3) = .ok (.limit q 3)) ∧ a.analyze p = .ok q := by
  intro events seven widen id a p q
  have hc : a.catalog.RespectsBeq := Catalog.standard_onlyAggregates.respectsBeq
  have hp : p ∈ (Plan.limit p 3).children := List.mem_cons_self
  have hlimit : a.analyze (.limit p 3) = .ok (.limit q 3) :=
    analyze_eq_ok_of_pass_eq rfl rfl rfl le_rfl
  obtain ⟨q', hq', hanalyze⟩ := (analyze_input rfl hc hp).1 _ hlimit
  obtain rfl := List.singleton_inj.1 hq'
  exact ⟨⟨rfl, hc, hp, hlimit⟩, hanalyze⟩

end Analyzer

end LogicalQuery
