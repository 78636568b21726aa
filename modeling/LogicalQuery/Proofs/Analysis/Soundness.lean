import LogicalQuery.Proofs.Aggregate.Soundness
import LogicalQuery.Proofs.Analysis.WellFormed

/-!
# Type soundness of analyzed plans

An expression of an analyzed plan has a type by the rules of `HasType`, as it is well formed and
resolved. Hence it has a value of that type on every row that conforms to the columns of the input,
and so has an aggregate over every list of such rows (`sound_of_analyze`).
-/

namespace LogicalQuery

namespace Expr

/-- At the root of the expression, only a truth value is negated. -/
def NegatesBoolean : Expr → Prop
  | not e => e.dataType = .ok .boolean
  | _ => True

variable {casts : CastRegistry} {cs : List Column}

theorem HasType.dataType?_eq {e : Expr} {t : DataType} (h : HasType casts cs e t) :
    e.dataType? = some t :=
  dataType?_eq_some_iff.2 h.dataType_eq

/-- Well-formed resolved expressions without aggregates have a type. -/
theorem exists_hasType {e : Expr} (hwf : e.All (WellFormed casts cs)) (hlit : e.All LiteralFits)
    (hnot : e.All NegatesBoolean) (hresolved : e.resolved = true)
    (haggregate : e.containsAggregate = false) : ∃ t, HasType casts cs e t := by
  induction e using children_induction with
  | node e ih =>
    have hchild {c : Expr} (hc : c ∈ e.children) (hresolved : c.resolved = true)
        (haggregate : c.containsAggregate = false) : ∃ t, HasType casts cs c t :=
      ih c hc (hwf.children hc) (hlit.children hc) (hnot.children hc) hresolved haggregate
    have hroot := hwf.self
    cases e with
    | literal v t => exact ⟨t, .literal hlit.self⟩
    | field f => exact ⟨f.type, .field hroot⟩
    | star | column _ _ | call _ _ => cases hresolved
    | renamed c n =>
      obtain ⟨t, ht⟩ := hchild List.mem_cons_self hresolved haggregate
      exact ⟨t, ht.renamed n⟩
    | not c =>
      obtain ⟨t, ht⟩ := hchild List.mem_cons_self hresolved haggregate
      have hboolean : c.dataType = .ok .boolean := hnot.self
      obtain rfl := Except.ok.inj (ht.dataType_eq.symm.trans hboolean)
      exact ⟨.boolean, ht.not⟩
    | comparison op l r =>
      rw [resolved, Bool.and_eq_true] at hresolved
      rw [containsAggregate, Bool.or_eq_false_iff] at haggregate
      obtain ⟨s, hs⟩ := hchild (by simp [children]) hresolved.1 haggregate.1
      obtain ⟨t, ht⟩ := hchild (by simp [children]) hresolved.2 haggregate.2
      have htypes : l.dataType? = r.dataType? := hroot
      rw [hs.dataType?_eq, ht.dataType?_eq] at htypes
      obtain rfl := Option.some.inj htypes
      exact ⟨.boolean, .comparison op hs ht⟩
    | cast c target b =>
      obtain ⟨source, f, hsource, hf, rfl⟩ := hroot
      rw [resolved, Bool.and_eq_true] at hresolved
      obtain ⟨s, hs⟩ := hchild List.mem_cons_self hresolved.2 haggregate
      obtain rfl := Option.some.inj (hs.dataType?_eq.symm.trans hsource)
      exact ⟨target, hs.cast hf⟩
    | aggregate g c => cases haggregate

end Expr

namespace Analyzer

variable {a : Analyzer}

/-- The literals of an analyzed plan still fit their types. -/
theorem literalFits_of_analyze (hrules : a.rules = Rule.standard) (hc : a.catalog.OnlyAggregates)
    {p q : Plan} (hp : p.LiteralsFit) (h : a.analyze p = .ok q) :
    q.Holds fun _ ↦ Expr.LiteralFits := by
  obtain ⟨⟨k, rfl⟩, -, -⟩ := iterate_of_analyze hrules hc h
  exact holds_iterate hrules hc (Expr.kept_literalFits a.toContext)
    (fun n hn _ _ e he ↦ hp n hn e he) k

/-- **Type soundness of analyzed plans.** Let a plan in which nothing is bound, and whose literals
fit their types, be analyzed with the standard rules and casts over a catalog whose functions are
the aggregates. Then the columns of each input in the result are known, and on every row that
conforms to them each expression without aggregates that negates only truth values fits its type.
Each aggregate that counts rows, or whose child is such an expression, fits its type over every
list of such rows. -/
theorem sound_of_analyze (hrules : a.rules = Rule.standard) (hc : a.catalog.OnlyAggregates)
    (hcasts : a.casts = .standard) {p q : Plan} (hp : p.IsUnbound) (hlit : p.LiteralsFit)
    (h : a.analyze p = .ok q) :
    ∀ n ∈ q.operators, ∀ c ∈ n.children, ∃ cs, c.schema = .ok cs ∧ ∀ e ∈ n.expressions,
      (e.containsAggregate = false → e.All Expr.NegatesBoolean →
        ∃ t, e.dataType = .ok t ∧ ∀ row : Row, row.Conforms cs → e.EvalFits t row) ∧
      ∀ agg : Aggregate, agg.toExpr ∈ e.subexprs →
        (agg.countsRows = true ∨
          agg.child.containsAggregate = false ∧ agg.child.All Expr.NegatesBoolean) →
        ∀ rows : List Row, (∀ row ∈ rows, row.Conforms cs) → agg.AccumulateFits rows := by
  intro n hn c hchild
  obtain ⟨-, -, hresolved⟩ := iterate_of_analyze hrules hc h
  obtain ⟨-, hexprs, hchildren⟩ := Plan.resolved_iff.1 (Plan.all_resolved hresolved n hn)
  have hnamed := Plan.named_of_resolved (hchildren c hchild)
  obtain ⟨cs, hcs⟩ := Plan.exists_schema_of_named hnamed
  have hshape := Plan.shape_of_schema hnamed hcs
  have hregistry : a.casts.Sound := hcasts ▸ CastRegistry.sound_standard
  refine ⟨cs, hcs, fun e he ↦ ?_⟩
  have hwf := wellFormed_of_analyze hrules hc hp h n hn c hchild e he
  have hlit := literalFits_of_analyze hrules hc hlit h n hn c hchild e he
  have htyped {s : Expr} (hs : s ∈ e.subexprs) (hresolved : s.resolved = true)
      (haggregate : s.containsAggregate = false) (hnot : s.All Expr.NegatesBoolean) :
      ∃ t, s.dataType = .ok t ∧ ∀ row : Row, row.Conforms cs → s.EvalFits t row := by
    obtain ⟨t, ht⟩ := Expr.exists_hasType (hwf.of_mem hs) (hlit.of_mem hs) hnot hresolved haggregate
    exact ⟨t, ht.dataType_eq, fun row hrow ↦ ht.eval_sound hregistry hshape hrow⟩
  refine ⟨fun haggregate hnot ↦ htyped e.self_mem_subexprs (hexprs e he) haggregate hnot, ?_⟩
  intro agg hagg hsound rows hrows
  have hmem : e.All fun s ↦ s ∈ e.subexprs := fun s hs ↦ hs
  have hresolved : agg.toExpr.resolved = true := by
    rcases Expr.resolved_or_isStar_of_mem (hexprs e he) hagg with h | h
    · exact h
    · exact nomatch h
  rw [Aggregate.toExpr, Expr.resolved, Bool.or_eq_true] at hresolved
  refine Aggregate.accumulateFits ?_
  rcases hsound with hstar | ⟨haggregate, hnot⟩
  · exact .inl hstar
  · -- A star is resolved under `count` only, and there all rows count.
    refine hresolved.imp_right fun hresolved ↦ ?_
    have hchild := ((hmem.of_mem hagg).children List.mem_cons_self).self
    obtain ⟨t, ht, hfits⟩ := htyped hchild hresolved haggregate hnot
    exact ⟨t, ht, fun row hrow ↦ hfits row (hrows row hrow)⟩

/-- Events by their numbers. -/
def events : Plan := .table "default" ⟨"events", [⟨"id", .integer, false, "events"⟩]⟩

/-- The event with the number seven, which is given as a big integer. -/
def eventSeven : Plan :=
  .filter events (.comparison .eq (.column none "id") (.literal (.bigInteger 7) .bigInteger))

/-- The predicate of the event with the number seven after its analysis. -/
def isEventSeven : Expr :=
  .comparison .eq
    (.cast (.field ⟨0, "events", "id", .integer, false⟩) .bigInteger <| some
      ⟨.integer, .bigInteger,
        (Cast.ofInteger .bigInteger fun n ↦ .ok (.bigInteger n.toInt64)).function⟩)
    (.literal (.bigInteger 7) .bigInteger)

/-- The analysis casts the number of an event to a big integer, and the predicate has a truth value
on every row of events. -/
theorem sound_of_analyze_eventSeven :
    let a := Analyzer.ofCatalog .standard { maxIterations := 3 }
    (a.rules = Rule.standard ∧ a.catalog.OnlyAggregates ∧ a.casts = .standard ∧
      eventSeven.IsUnbound ∧ eventSeven.LiteralsFit ∧
      a.analyze eventSeven = .ok (.filter events isEventSeven)) ∧
      ∃ cs, events.schema = .ok cs ∧ ∃ t, isEventSeven.dataType = .ok t ∧
        ∀ row : Row, row.Conforms cs → isEventSeven.EvalFits t row := by
  intro a
  have hunbound : eventSeven.IsUnbound := by
    simp [eventSeven, events, Plan.IsUnbound, Plan.All, Plan.operators, Plan.expressions, Expr.All,
      Expr.subexprs, Expr.IsUnbound]
  have hliterals : eventSeven.LiteralsFit := by
    simp [eventSeven, events, Plan.LiteralsFit, Plan.All, Plan.operators, Plan.expressions,
      Expr.All, Expr.subexprs, Expr.LiteralFits, DataType.check, Value.dataType?]
  have hfirst : a.pass eventSeven = .filter events isEventSeven := rfl
  have hsecond : a.pass (.filter events isEventSeven) = .filter events isEventSeven := rfl
  have hanalyze : a.analyze eventSeven = .ok (.filter events isEventSeven) := by
    refine analyze_eq_ok_iff.2 ⟨settle_eq_ok_iff.2 ⟨1, by decide, ?_, ?_, ?_⟩, rfl⟩
    · show _ = a.pass (a.pass eventSeven)
      rw [hfirst, hsecond]
    · show (_ == a.pass eventSeven) = true
      rw [hfirst]
      exact beq_self_eq_true _
    · intro j hj
      obtain rfl := Nat.lt_one_iff.1 hj
      show (a.pass eventSeven == eventSeven) = false
      rw [hfirst]
      rfl
  have hnegates : isEventSeven.All Expr.NegatesBoolean := by
    simp [isEventSeven, Expr.All, Expr.subexprs, Expr.NegatesBoolean]
  refine ⟨⟨rfl, Catalog.standard_onlyAggregates, rfl, hunbound, hliterals, hanalyze⟩, ?_⟩
  obtain ⟨cs, hcs, hsound⟩ := sound_of_analyze rfl Catalog.standard_onlyAggregates rfl hunbound
    hliterals hanalyze _ (Plan.self_mem_operators _) events List.mem_cons_self
  exact ⟨cs, hcs, (hsound isEventSeven List.mem_cons_self).1 rfl hnegates⟩

end Analyzer

end LogicalQuery
