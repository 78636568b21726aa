import LogicalQuery.Proofs.Analysis.WellFormed
import LogicalQuery.Proofs.Plan.Output

/-!
# The names of bound columns

A column is bound to a position of the input, and takes down the name that the column has there.
It is bound before the comparisons in the input are coerced, and coercions show in names. In the
analyzed plan the position, the type, the nullability and the table are still those of a column of
the input, but the name may be that of its expression before coercion: it is the name of the column
if no comparison with a widened operand shows in it (`exists_made_of_analyze`).
-/

namespace LogicalQuery

/-! ### Every rule elaborates -/

namespace Expr

theorem elaborates_bindColumn (columns : List Column) (e : Expr) :
    e.Elaborates (e.bindColumn columns) := by
  rcases bindColumn_cases columns e with h | ⟨table, name, c, index, rfl, -, -, -⟩
  · exact h.symm ▸ .refl e
  · exact .of_not_named rfl rfl

theorem elaborates_bindCall {catalog : Catalog} (hc : catalog.OnlyAggregates) (e : Expr) :
    e.Elaborates (e.bindCall catalog) := by
  rcases bindCall_cases hc e with h | ⟨name, arg, g, rfl, -⟩
  · exact h.symm ▸ .refl e
  · exact .of_not_named rfl rfl

theorem elaborates_coerceOperands (e : Expr) : e.Elaborates e.coerceOperands where
  toRefines := refines_coerceOperands e
  coerced _ := by
    rcases coerceOperands_cases e with h | ⟨op, l, r, s, t, rfl, hs, ht, hst, h⟩
    · rw [h]
    · rcases h with ⟨hcommon, h⟩ | ⟨hcommon, h⟩
      · rw [h, coerced_comparison hs ht, coerced_comparison (dataType?_cast l t none) ht]
        simp [hcommon, coerced_cast, coerce, hst]
      · rw [h, coerced_comparison hs ht, coerced_comparison hs (dataType?_cast r s none)]
        simp [hcommon, coerced_cast, coerce, Ne.symm hst]

theorem elaborates_bindCast (casts : CastRegistry) (e : Expr) :
    e.Elaborates (e.bindCast casts) where
  toRefines := refines_bindCast casts e
  coerced _ := by
    rcases bindCast_cases casts e with h | ⟨child, source, target, function, rfl, -, -, h⟩
    · rw [h]
    · rw [h, coerced_cast, coerced_cast]

end Expr

namespace Plan

theorem elaborates_bindTable (ctx : Context) (p : Plan) : p.Elaborates (p.bindTable ctx) where
  refines := refines_bindTable ctx p
  outputs hp := by
    rcases bindTable_cases ctx p with h | ⟨database, name, schema, rfl, -, -⟩
    · rw [h]
    · exact absurd (named_iff.1 hp).1 Bool.noConfusion

theorem elaborates_expandStars (p : Plan) : p.Elaborates p.expandStars where
  refines := refines_expandStars p
  outputs hp := by
    rcases expandStars_cases p with h | ⟨input, es, columns, rfl, -, h⟩
    · rw [h]
    · have hes : ∀ e ∈ es, e.isStar = false :=
        fun e he ↦ Expr.isStar_eq_false_of_named ((named_iff.1 hp).2.1 e he)
      rw [h, Expr.expandStars_eq_self hes]

theorem elaborates_bindColumns (p : Plan) : p.Elaborates p.bindColumns := by
  rcases bindColumns_cases p with h | ⟨columns, -, h⟩
  · exact h.symm ▸ .refl p
  · rw [h]
    exact elaborates_transformExpressions (Expr.elaborates_bindColumn columns) p

end Plan

/-- **The standard rules elaborate every plan.** -/
theorem Rule.elaborates_of_mem_standard {ctx : Context} (hc : ctx.catalog.OnlyAggregates)
    {r : Rule} (hr : r ∈ Rule.standard) (p : Plan) : p.Elaborates (r.apply ctx p) := by
  rcases mem_standard_iff.1 hr with rfl | rfl | rfl | rfl | rfl | rfl
  · exact Plan.elaborates_transformUp (Plan.elaborates_bindTable ctx) p
  · exact Plan.elaborates_transformUp Plan.elaborates_expandStars p
  · exact Plan.elaborates_transformUp Plan.elaborates_bindColumns p
  · exact Plan.elaborates_transformExpressionsUp (Expr.elaborates_bindCall hc) p
  · exact Plan.elaborates_transformExpressionsUp Expr.elaborates_coerceOperands p
  · exact Plan.elaborates_transformExpressionsUp (Expr.elaborates_bindCast ctx.casts) p

/-! ### Names of fields -/

/-- The expression, if it is a bound column, has the name that an output expression of the input has
or had before coercions. -/
def Expr.NamedAfter (c : Plan) : Expr → Prop
  | field f => c.named = true ∧ ∃ made seen : Expr,
      c.outputs[f.index]? = some made ∧ seen.named = true ∧ seen.coerced = made.coerced ∧
      seen.name = f.name
  | _ => True

theorem keptOver_namedAfter (ctx : Context) :
    KeptOver ctx Plan.Elaborates Expr.NamedAfter where
  changed {c c' s} hchange h := by
    cases s with
    | field f =>
      obtain ⟨hnamed, made, seen, hmade, hseen, hcoerced, hname⟩ := h
      have houtputs := congrArg (·[f.index]?) (hchange.outputs hnamed)
      simp only [List.getElem?_map, hmade, Option.map_some, Option.map_eq_some_iff] at houtputs
      obtain ⟨made', hmade', hcoerced'⟩ := houtputs
      exact ⟨(hchange.refines hnamed).1, made', seen, hmade', hseen, hcoerced.trans hcoerced'.symm,
        hname⟩
    | _ => trivial
  rebuilt {c s} g h := by
    cases s with
    | field _ => exact h
    | _ => trivial
  field {c columns} hcolumns column i hi := by
    obtain ⟨hresolved, hschema⟩ := Plan.resolvedSchema?_eq_some_iff.1 hcolumns
    have hnamed := Plan.named_of_resolved hresolved
    obtain ⟨made, hmade, hcolumn⟩ := Plan.exists_outputs_of_schema hschema hi
    exact ⟨hnamed, made, made, hmade, Plan.named_of_mem_outputs hnamed (List.mem_of_getElem? hmade),
      rfl, Expr.outputColumn_name hcolumn⟩
  aggregate _ _ _ := trivial
  coercion _ := ⟨fun _ _ _ ↦ trivial, fun _ _ ↦ trivial, fun _ _ _ _ _ ↦ trivial⟩

/-! ### Settled outputs -/

/-- In a settled expression all operands are coerced. -/
theorem Expr.coerced_eq_unbound {e : Expr} (h : e.All IsSettled) : e.coerced = e.unbound := by
  induction e using children_induction with
  | node e ih =>
    have hchildren := mapChildren_congr fun c hc ↦ ih c hc (h.children hc)
    rw [coerced_eq, unbound_eq, hchildren]
    cases e with
    | comparison op l r =>
      have htypes : l.dataType? = r.dataType? := h.self
      refine coerceNode_comparison_self ?_
      rw [dataType?_unbound, dataType?_unbound, htypes]
    | _ => rfl

theorem Plan.all_isSettled_of_mem_outputs {p : Plan}
    (h : p.All fun n ↦ ∀ e ∈ n.expressions, e.All Expr.IsSettled) {e : Expr}
    (he : e ∈ p.outputs) : e.All Expr.IsSettled := by
  rcases mem_outputs he with ⟨f, rfl⟩ | ⟨n, hn, he⟩
  · exact Expr.all_iff.2 ⟨trivial, fun c hc ↦ absurd hc List.not_mem_nil⟩
  · exact h n hn e he

namespace Analyzer

variable {a : Analyzer}

/-- The bound columns of an analyzed plan have the names of output expressions of their inputs. -/
theorem namedAfter_of_analyze (hrules : a.rules = Rule.standard) (hc : a.catalog.OnlyAggregates)
    {p q : Plan} (hp : p.IsUnbound) (h : a.analyze p = .ok q) : q.HoldsOver Expr.NamedAfter := by
  obtain ⟨⟨k, rfl⟩, -, -⟩ := iterate_of_analyze hrules hc h
  refine holdsOver_iterate hrules hc (keptOver_namedAfter a.toContext)
    (fun _ hr ↦ Rule.elaborates_of_mem_standard hc hr) (fun n hn c _ e he ↦ ?_) k
  refine (hp n hn e he).imp fun s hs ↦ ?_
  cases s with
  | field _ => exact hs.elim
  | _ => trivial

/-- **Bound columns are columns of the input, up to coercions in their names.** Let a plan in which
nothing is bound be analyzed with the standard rules over a catalog whose functions are the
aggregates. Then the columns of each input in the result are known, and a column that is bound over
the input stands at its position among them, with its type, its nullability and its table. Its name
is that of an expression which, when its operands are coerced, is the output expression at the
position, and it is the name of the column at the position, unless a comparison with a widened
operand shows in the output expression. -/
theorem exists_made_of_analyze (hrules : a.rules = Rule.standard) (hc : a.catalog.OnlyAggregates)
    {p q : Plan} (hp : p.IsUnbound) (h : a.analyze p = .ok q) :
    ∀ n ∈ q.operators, ∀ c ∈ n.children, ∃ cs, c.schema = .ok cs ∧
      ∀ e ∈ n.expressions, ∀ f, .field f ∈ e.subexprs →
        ∃ made column, c.outputs[f.index]? = some made ∧ cs[f.index]? = some column ∧
          made.outputColumn = .ok column ∧ column.unnamed = f.column ∧
          (∃ seen : Expr, seen.name = f.name ∧ seen.coerced = made.unbound) ∧
          (made.showsWidening = false → column.name = f.name) := by
  intro n hn c hchild
  have hsettled := isSettled_of_analyze hrules h
  have hresolved := (Plan.resolved_iff.1 (Plan.all_resolved hsettled.resolved n hn)).2.2 c hchild
  have hnamed := Plan.named_of_resolved hresolved
  obtain ⟨cs, hcs⟩ := Plan.exists_schema_of_named hnamed
  refine ⟨cs, hcs, fun e he f hf ↦ ?_⟩
  obtain ⟨-, made, seen, hmade, hseen, hcoerced, hname⟩ :=
    namedAfter_of_analyze hrules hc hp h n hn c hchild e he _ hf
  have hshape : c.shape[f.index]? = some f.column :=
    wellFormed_of_analyze hrules hc hp h n hn c hchild e he _ hf
  rw [Plan.shape_of_schema hnamed hcs, List.getElem?_map, Option.map_eq_some_iff] at hshape
  obtain ⟨column, hcolumn, hunnamed⟩ := hshape
  obtain ⟨made', hmade', hmakes⟩ := Plan.exists_outputs_of_schema hcs hcolumn
  obtain rfl := Option.some.inj (hmade.symm.trans hmade')
  have hmem := List.mem_of_getElem? hmade
  have hmadeNamed := Plan.named_of_mem_outputs hnamed hmem
  have hmadeSettled := Plan.all_isSettled_of_mem_outputs
    ((hsettled.exprs.of_mem hn).children hchild) hmem
  rw [Expr.coerced_eq_unbound hmadeSettled] at hcoerced
  refine ⟨made, column, hmade, hcolumn, hmakes, hunnamed, ⟨seen, hname, hcoerced⟩, fun hshows ↦ ?_⟩
  have hseenShows : seen.coerced.showsWidening = false := by
    rw [hcoerced, Expr.showsWidening_unbound hmadeNamed, hshows]
  calc column.name = made.name := (Expr.outputColumn_name hmakes).symm
    _ = made.unbound.name := (Expr.name_unbound hmadeNamed).symm
    _ = seen.coerced.name := by rw [hcoerced]
    _ = seen.name := Expr.name_coerced hseen hseenShows
    _ = f.name := hname

/-- Events by whether a number, given as an expression, is seven. -/
def sevens (number : Expr) : Plan :=
  .project (.table "default" ⟨"events", [⟨"id", .integer, false, "events"⟩]⟩)
    [.comparison .eq number (.literal (.bigInteger 7) .bigInteger)]

/-- The number of an event as a big integer. -/
def widenedNumber : Expr :=
  .cast (.field ⟨0, "events", "id", .integer, false⟩) .bigInteger <| some ⟨.integer, .bigInteger,
    (Cast.ofInteger .bigInteger fun n ↦ .ok (.bigInteger n.toInt64)).function⟩

/-- The column of whether a number is seven, by the name that it has before coercion. -/
def sevenField : Field := ⟨0, "", "id = 7", .boolean, false⟩

/-- A filter finds the column of a projection by its name before coercion. -/
theorem analyze_sevens :
    let p : Plan := .filter (sevens (.column none "id")) (.not (.column none "id = 7"))
    p.IsUnbound ∧ (Analyzer.ofCatalog .standard { maxIterations := 2 }).analyze p =
      .ok (.filter (sevens widenedNumber) (.not (.field sevenField))) := by
  refine ⟨?_, analyze_eq_ok_of_pass_eq rfl rfl rfl le_rfl⟩
  simp [sevens, Plan.IsUnbound, Plan.All, Plan.operators, Plan.expressions, Expr.All,
    Expr.subexprs, Expr.IsUnbound]

/-- The column that the filter refers to is still that of the comparison, which is coerced now. -/
theorem exists_made_of_analyze_sevens :
    let a := Analyzer.ofCatalog .standard { maxIterations := 2 }
    let p : Plan := .filter (sevens (.column none "id")) (.not (.column none "id = 7"))
    let q : Plan := .filter (sevens widenedNumber) (.not (.field sevenField))
    (a.rules = Rule.standard ∧ a.catalog.OnlyAggregates ∧ p.IsUnbound ∧ a.analyze p = .ok q) ∧
      ∃ cs, (sevens widenedNumber).schema = .ok cs ∧
        ∃ made column, (sevens widenedNumber).outputs[0]? = some made ∧ cs[0]? = some column ∧
          made.outputColumn = .ok column ∧ column.unnamed = sevenField.column ∧
          (∃ seen : Expr, seen.name = "id = 7" ∧ seen.coerced = made.unbound) ∧
          (made.showsWidening = false → column.name = "id = 7") := by
  intro a p q
  obtain ⟨hunbound, hanalyze⟩ := analyze_sevens
  refine ⟨⟨rfl, Catalog.standard_onlyAggregates, hunbound, hanalyze⟩, ?_⟩
  obtain ⟨cs, hcs, hfields⟩ := exists_made_of_analyze rfl Catalog.standard_onlyAggregates hunbound
    hanalyze _ (Plan.self_mem_operators _) (sevens widenedNumber) List.mem_cons_self
  exact ⟨cs, hcs, hfields _ List.mem_cons_self sevenField (by simp [Expr.subexprs])⟩

/-- The filter refers to a column by a name that no column of its input has. -/
theorem exists_field_name_ne_of_analyze :
    let a := Analyzer.ofCatalog .standard { maxIterations := 2 }
    let p : Plan := .filter (sevens (.column none "id")) (.not (.column none "id = 7"))
    let q : Plan := .filter (sevens widenedNumber) (.not (.field sevenField))
    (a.rules = Rule.standard ∧ a.catalog.OnlyAggregates ∧ p.IsUnbound ∧ a.analyze p = .ok q) ∧
      ¬ ∀ n ∈ q.operators, ∀ c ∈ n.children, ∃ cs, c.schema = .ok cs ∧
        ∀ e ∈ n.expressions, ∀ f, .field f ∈ e.subexprs →
          ∃ column, cs[f.index]? = some column ∧ column.name = f.name := by
  intro a p q
  obtain ⟨hunbound, hanalyze⟩ := analyze_sevens
  refine ⟨⟨rfl, Catalog.standard_onlyAggregates, hunbound, hanalyze⟩, fun hnames ↦ ?_⟩
  obtain ⟨cs, hcs, hfields⟩ :=
    hnames q (Plan.self_mem_operators q) (sevens widenedNumber) List.mem_cons_self
  obtain ⟨column, hcolumn, hname⟩ :=
    hfields _ List.mem_cons_self sevenField (by simp [Expr.subexprs])
  have hschema : (sevens widenedNumber).schema =
      .ok [⟨"cast(id as biginteger) = 7", .boolean, false, ""⟩] := rfl
  obtain rfl := Except.ok.inj (hcs.symm.trans hschema)
  obtain rfl := Option.some.inj hcolumn
  exact absurd hname (by decide)

end Analyzer

end LogicalQuery
