import LogicalQuery.Expr.Eval
import LogicalQuery.Proofs.Cast.Standard
import LogicalQuery.Proofs.Plan.Shape

/-!
# What it means to be resolved

Everything in a resolved expression is bound, so it has a type, and its evaluation finds nothing
that is not bound: on a row it fails only where a column is out of range, an aggregate is evaluated,
a value has the wrong type, or the function of a bound cast refuses its argument (`exists_raises`).
In the other direction, the evaluation of an expression visits all of it, null or not, and so a
value is a proof that the expression is resolved and holds no aggregate (`all_isRowwise_of_eval`).
Every operator of a resolved plan has columns. The three together are what the rest of the library
takes from the word (`resolved_guarantees`).
-/

namespace LogicalQuery

namespace Expr

variable {e : Expr} {row : Row} {v : Value} {err : Error}

/-! ### Expressions with values -/

/-- Whether an expression has a value on a row where its children have: it is not a name, a star, a
call or a cast without a function, and it is not an aggregate. -/
def isRowwise : Expr → Bool
  | literal _ _ | field _ | renamed _ _ | not _ | comparison _ _ _ | cast _ _ (some _) => true
  | star | column _ _ | call _ _ | cast _ _ none | aggregate _ _ => false

/-- Where an expression has a value, its children have. In particular, both operands of a comparison
are evaluated if the first one is null. -/
theorem isRowwise_of_eval (h : e.eval row = .ok v) :
    e.isRowwise = true ∧ ∀ c ∈ e.children, ∃ w, c.eval row = .ok w := by
  cases e with
  | literal _ _ | field _ => exact ⟨rfl, fun c hc ↦ absurd hc List.not_mem_nil⟩
  | star | column _ _ | call _ _ | aggregate _ _ => exact nomatch h
  | renamed c _ => exact ⟨rfl, List.forall_mem_singleton.2 ⟨v, h⟩⟩
  | not c =>
    rw [eval, bind_eq_ok_iff] at h
    obtain ⟨w, hw, -⟩ := h
    exact ⟨rfl, List.forall_mem_singleton.2 ⟨w, hw⟩⟩
  | comparison op l r =>
    rw [eval, bind_eq_ok_iff] at h
    obtain ⟨a, ha, h⟩ := h
    obtain ⟨b, hb, -⟩ := bind_eq_ok_iff.1 h
    exact ⟨rfl, List.forall_mem_cons.2 ⟨⟨a, ha⟩, List.forall_mem_singleton.2 ⟨b, hb⟩⟩⟩
  | cast c t b =>
    cases b with
    | none => exact nomatch h
    | some b =>
      rw [eval, bind_eq_ok_iff] at h
      obtain ⟨w, hw, -⟩ := h
      exact ⟨rfl, List.forall_mem_singleton.2 ⟨w, hw⟩⟩

/-- **A value is evidence for every subexpression.** -/
theorem all_isRowwise_of_eval (h : e.eval row = .ok v) : e.All fun s ↦ s.isRowwise = true := by
  induction e using children_induction generalizing v with
  | node e ih =>
    obtain ⟨he, hchildren⟩ := isRowwise_of_eval h
    refine all_iff.2 ⟨he, fun c hc ↦ ?_⟩
    obtain ⟨w, hw⟩ := hchildren c hc
    exact ih c hc hw

/-- Resolved expressions without aggregates are those in which every subexpression may have a
value. -/
theorem all_isRowwise_iff :
    (e.All fun s ↦ s.isRowwise = true) ↔ e.resolved = true ∧ e.containsAggregate = false := by
  induction e using children_induction with
  | node e ih =>
    rw [all_iff, forall₂_congr ih]
    cases e with
    | literal _ _ | field _ | renamed _ _ | not _ | star | column _ _ | call _ _ | aggregate _ _ =>
      simp [isRowwise, children, resolved, containsAggregate]
    | comparison op l r =>
      simp [isRowwise, children, resolved, containsAggregate, and_and_and_comm]
    | cast c t b => cases b <;> simp [isRowwise, children, resolved, containsAggregate]

/-! ### Failures -/

/-- The expression raises the error on the row itself: its children have values, as far as they are
evaluated. -/
inductive Raises (row : Row) : Expr → Error → Prop
  | outOfRange {f : Field} (h : row.get? f.index = none) :
      Raises row (field f) (.invalidExpression (.columnOutOfRange f.name f.index row.size))
  | mismatch (e : Expr) (expected : DataType) (actual : Option DataType) :
      Raises row e (.typeMismatch expected actual)
  | cast {child : Expr} {c : BoundCast} {v : Value} {err : Error} (target : DataType)
      (hv : child.eval row = .ok v) (h : c.apply v = .error err) :
      Raises row (cast child target (some c)) err
  | aggregate (g : AggregateFunction) (c : Expr) :
      Raises row (aggregate g c) (.invalidExpression (.aggregateOnRow (aggregate g c).name))

/-- **Failures of resolved expressions.** Where the evaluation of a resolved expression fails, one
of its subexpressions raises the error. -/
theorem exists_raises (he : e.resolved = true) (h : e.eval row = .error err) :
    ∃ s ∈ e.subexprs, s.Raises row err := by
  have hself {s : Expr} (hs : s.Raises row err) : ∃ s' ∈ s.subexprs, s'.Raises row err :=
    ⟨s, self_mem_subexprs s, hs⟩
  induction e using children_induction with
  | node e ih =>
    have hchild {c : Expr} (hc : c ∈ e.children) (hresolved : c.resolved = true)
        (herr : c.eval row = .error err) : ∃ s ∈ e.subexprs, s.Raises row err := by
      obtain ⟨s, hs, hraises⟩ := ih c hc hresolved herr
      exact ⟨s, mem_subexprs_iff.2 (.inr ⟨c, hc, hs⟩), hraises⟩
    cases e with
    | literal _ _ => cases h
    | star | column _ _ | call _ _ => cases he
    | field f =>
      rw [eval] at h
      split at h
      next => cases h
      next hnone =>
        obtain rfl := Except.error.inj h
        exact hself (.outOfRange hnone)
    | renamed c _ => exact hchild List.mem_cons_self he h
    | not c =>
      rw [eval, bind_eq_error_iff] at h
      rcases h with h | ⟨v, -, h⟩
      · exact hchild List.mem_cons_self he h
      · split at h
        next => cases h
        next => cases h
        next =>
          obtain rfl := Except.error.inj h
          exact hself (.mismatch _ _ _)
    | comparison op l r =>
      rw [resolved, Bool.and_eq_true] at he
      obtain ⟨t, ht⟩ := exists_dataType?_of_named (named_of_resolved he.1)
      rw [eval, dataType?_eq_some_iff.1 ht, bind_eq_error_iff] at h
      rcases h with h | ⟨a, -, h⟩
      · exact hchild (by simp [children]) he.1 h
      rcases bind_eq_error_iff.1 h with h | ⟨b, -, h⟩
      · exact hchild (by simp [children]) he.2 h
      -- The operands have values, so it is their comparison that fails.
      split at h
      next => cases h
      next =>
        rw [ok_bind, bind_eq_error_iff] at h
        rcases h with h | ⟨o, -, h⟩
        · obtain ⟨actual, rfl⟩ := DataType.exists_mismatch_of_compare h
          exact hself (.mismatch _ _ _)
        · cases h
    | cast c t b =>
      rw [resolved, Bool.and_eq_true] at he
      obtain ⟨b, rfl⟩ := Option.isSome_iff_exists.1 he.1
      rw [eval, bind_eq_error_iff] at h
      rcases h with h | ⟨v, hv, h⟩
      · exact hchild List.mem_cons_self he.2 h
      · exact hself (.cast t hv h)
    | aggregate g c =>
      obtain rfl := Except.error.inj h
      exact hself (.aggregate g c)

/-- Of the errors that a resolved expression raises, only those of cast functions may be about an
unresolved expression. -/
theorem exists_cast_of_eval_eq_unresolved (he : e.resolved = true) {n : String}
    (h : e.eval row = .error (.unresolvedExpression n)) :
    ∃ child target c v, cast child target (some c) ∈ e.subexprs ∧ child.eval row = .ok v ∧
      c.function v = .error (.unresolvedExpression n) := by
  obtain ⟨s, hs, hraises⟩ := exists_raises he h
  cases hraises with
  | @cast child c v _ target hv happly =>
    rw [BoundCast.apply] at happly
    split at happly
    next => exact nomatch happly
    next => exact ⟨child, target, c, v, hs, hv, happly⟩

theorem exists_dataType_of_resolved (he : e.resolved = true) : ∃ t, e.dataType = .ok t := by
  obtain ⟨t, ht⟩ := exists_dataType?_of_named (named_of_resolved he)
  exact ⟨t, dataType?_eq_some_iff.1 ht⟩

end Expr

/-! ### Plans -/

theorem Plan.all_exists_schema_of_resolved {p : Plan} (h : p.resolved = true) :
    p.All fun n ↦ ∃ cs, n.schema = .ok cs :=
  (all_resolved h).imp fun _ hn ↦ exists_schema_of_named (named_of_resolved hn)

/-- The number seven is cast by a function that reports an unresolved expression, though it gets a
value. The cast is bound, and so it is resolved, but its evaluation passes the report on. -/
theorem eval_reporting_cast :
    let report : Value → Except Error Value := fun _ ↦ .error (.unresolvedExpression "seven")
    let e : Expr := .cast (.literal (.integer 7) .integer) .bigInteger
      (some ⟨.integer, .bigInteger, report⟩)
    e.resolved = true ∧ e.eval ⟨[]⟩ = .error (.unresolvedExpression "seven") :=
  ⟨rfl, rfl⟩

/-- **What is resolved is ready for evaluation.** A resolved expression has a type, and its
evaluation on a row does not report an unresolved expression. It would only pass on such a report of
the function of a cast that is bound in it, and a function that judges values, as those of the
standard registry do, makes none. In the other direction, an expression that has a value on some row
is resolved and has no aggregate in it, since null does not stop an evaluation short. A resolved
plan has columns, and so has every operator in it. -/
theorem resolved_guarantees :
    (∀ e : Expr, e.resolved = true →
      (∃ t, e.dataType = .ok t) ∧
      (∀ row n, e.eval row = .error (.unresolvedExpression n) →
        ∃ child target c v, .cast child target (some c) ∈ e.subexprs ∧ child.eval row = .ok v ∧
          c.function v = .error (.unresolvedExpression n)) ∧
      ((∀ child target c, .cast child target (some c) ∈ e.subexprs →
          Cast.JudgesValues c.function) →
        ∀ row n, e.eval row ≠ .error (.unresolvedExpression n))) ∧
    (∀ (e : Expr) row v, e.eval row = .ok v →
      e.resolved = true ∧ e.containsAggregate = false) ∧
    ∀ p : Plan, p.resolved = true → p.All fun n ↦ ∃ cs, n.schema = .ok cs := by
  refine ⟨fun e he ↦ ⟨Expr.exists_dataType_of_resolved he, fun row n ↦
    Expr.exists_cast_of_eval_eq_unresolved he, fun hcasts row n h ↦ ?_⟩, fun e row v h ↦ ?_,
    fun p ↦ Plan.all_exists_schema_of_resolved⟩
  · obtain ⟨child, target, c, v, hmem, -, herr⟩ := Expr.exists_cast_of_eval_eq_unresolved he h
    exact hcasts child target c hmem v n herr
  · exact Expr.all_isRowwise_iff.1 (Expr.all_isRowwise_of_eval h)

/-- A count of all rows is resolved, although the star in it is not. A comparison with a widened
column has a value, and reports no unresolved expression on any row, not even on one without fields.
-/
theorem resolved_guarantees_widened :
    let widen := (Cast.ofInteger .bigInteger fun n ↦ .ok (.bigInteger n.toInt64)).function
    let id : Expr := .field ⟨0, "events", "id", .integer, false⟩
    let e : Expr := .comparison .eq (.cast id .bigInteger (some ⟨.integer, .bigInteger, widen⟩))
      (.literal (.bigInteger 7) .bigInteger)
    let p : Plan := .groupBy (.filter (.table "default" ⟨"events", []⟩) e)
      [.aggregate .count .star] []
    CastRegistry.standard.function .integer .bigInteger = .ok widen ∧ e.resolved = true ∧
      e.eval ⟨[.integer 7]⟩ = .ok (.boolean true) ∧ p.resolved = true ∧
      (∀ row n, e.eval row ≠ .error (.unresolvedExpression n)) ∧ e.containsAggregate = false ∧
      ∀ n ∈ p.operators, ∃ cs, n.schema = .ok cs := by
  intro widen id e p
  have hwiden : CastRegistry.standard.function .integer .bigInteger = .ok widen := rfl
  have hvalue : e.eval ⟨[.integer 7]⟩ = .ok (.boolean true) := rfl
  obtain ⟨hexpr, hvalues, hplan⟩ := resolved_guarantees
  refine ⟨hwiden, rfl, hvalue, rfl, (hexpr e rfl).2.2 fun child target c hmem ↦ ?_,
    (hvalues e _ _ hvalue).2, hplan p rfl⟩
  obtain ⟨-, -, rfl⟩ : child = id ∧ target = .bigInteger ∧ c = ⟨.integer, .bigInteger, widen⟩ := by
    simpa [e, id, Expr.subexprs] using hmem
  exact CastRegistry.judgesValues_standard hwiden

end LogicalQuery
