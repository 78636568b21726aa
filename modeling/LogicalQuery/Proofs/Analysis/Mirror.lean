import LogicalQuery.Expr.Eval
import LogicalQuery.Proofs.Analysis.Settled
import LogicalQuery.Proofs.Outcome
import LogicalQuery.Proofs.Value.Order

/-!
# Comparisons in mirror image

The mirror image of a comparison has its operands in the other order, and the operator that holds in
the other direction. A rule does the same to an operand on both sides, and coercion chooses the common
type without regard to the sides, so the analyses of two filters by mirrored comparisons go in step
(`Rule.mirrors_apply`). In what they give, both operands are of one type, and the order of a type is
antisymmetric. So the comparisons have the same values (`Analyzer.analyze_comparison_mirror`).

Errors are not compared: where both operands fail, a comparison has the error of the left one.
-/

namespace LogicalQuery

/-! ### Operators -/

namespace ComparisonOp

/-- The operator that holds in the other direction. -/
def mirror : ComparisonOp → ComparisonOp
  | eq => eq
  | gt => lt
  | lt => gt
  | ge => le
  | le => ge

@[simp]
theorem mirror_mirror (op : ComparisonOp) : op.mirror.mirror = op := by
  cases op <;> rfl

/-- The mirror image of an operator holds of the operands in the other order. -/
theorem holds_mirror (op : ComparisonOp) (o : Ordering) : op.mirror.holds o.swap = op.holds o := by
  cases op <;> cases o <;> rfl

/-- What an operator says of two values of the type `t`. Null is not compared. -/
def apply (op : ComparisonOp) (t : DataType) (a b : Value) : Except Error Value :=
  if a.isNull || b.isNull then .ok .null else (t.compare a b).map fun o ↦ .boolean (op.holds o)

end ComparisonOp

/-! ### Values -/

/-- A type that compares two values compares them in the other direction as well. -/
theorem DataType.toOption_compare_swap (t : DataType) (a b : Value) :
    (t.compare b a).toOption = (t.compare a b).toOption.map Ordering.swap := by
  cases hab : t.compare a b with
  | ok o =>
    rw [compare_swap hab]
    rfl
  | error e =>
    cases hba : t.compare b a with
    | ok o => exact nomatch hab.symm.trans (compare_swap hba)
    | error e' => rfl

theorem ComparisonOp.toOption_apply_mirror (op : ComparisonOp) (t : DataType) (a b : Value) :
    (op.mirror.apply t b a).toOption = (op.apply t a b).toOption := by
  rw [apply, apply, Bool.or_comm]
  split
  next => rfl
  next =>
    rw [toOption_map, toOption_map, DataType.toOption_compare_swap, Option.map_map]
    simp only [Function.comp_def, holds_mirror]

namespace Expr

variable {op : ComparisonOp} {e e' l r : Expr} {t : DataType}

theorem eval_comparison (hl : l.dataType? = some t) (row : Row) :
    (comparison op l r).eval row =
      l.eval row >>= fun a ↦ r.eval row >>= fun b ↦ op.apply t a b := by
  rw [eval, dataType?_eq_some_iff.1 hl]
  refine bind_congr fun a ↦ bind_congr fun b ↦ ?_
  rw [ComparisonOp.apply]
  split
  next => rfl
  next =>
    cases h : t.compare a b <;> simp [h, Except.map]

/-- **A comparison of operands of one type has the values of its mirror image.** -/
theorem toOption_eval_mirror (op : ComparisonOp) (hl : l.dataType? = some t)
    (hr : r.dataType? = some t) (row : Row) :
    ((comparison op.mirror r l).eval row).toOption = ((comparison op l r).eval row).toOption := by
  rw [eval_comparison hl, eval_comparison hr]
  simp only [toOption_bind, op.toOption_apply_mirror]
  exact Option.bind_comm _ _

/-! ### Mirror images of expressions -/

/-- The second expression is the mirror image of the first one, a comparison with the operator `op`. -/
inductive Mirrors (op : ComparisonOp) : Expr → Expr → Prop
  | comparison (l r : Expr) : Mirrors op (comparison op l r) (comparison op.mirror r l)

namespace Mirrors

theorem symm (h : Mirrors op e e') : Mirrors op.mirror e' e := by
  obtain ⟨l, r⟩ := h
  have hmirror : Mirrors op.mirror _ _ := comparison r l
  rwa [op.mirror_mirror] at hmirror

/-- Transformations keep mirror images, if their functions do. -/
theorem transformUp {f : Expr → Expr} (hf : ∀ e e', Mirrors op e e' → Mirrors op (f e) (f e'))
    (h : Mirrors op e e') : Mirrors op (e.transformUp f) (e'.transformUp f) := by
  obtain ⟨l, r⟩ := h
  rw [transformUp_eq, transformUp_eq]
  exact hf _ _ (comparison _ _)

theorem bindColumn (columns : List Column) (h : Mirrors op e e') :
    Mirrors op (e.bindColumn columns) (e'.bindColumn columns) := by
  obtain ⟨l, r⟩ := h
  exact comparison l r

theorem bindCall (catalog : Catalog) (h : Mirrors op e e') :
    Mirrors op (e.bindCall catalog) (e'.bindCall catalog) := by
  obtain ⟨l, r⟩ := h
  exact comparison l r

/-- The operands are coerced to the same type in the mirror image. -/
theorem coerceOperands (h : Mirrors op e e') : Mirrors op e.coerceOperands e'.coerceOperands := by
  obtain ⟨l, r⟩ := h
  simp only [Expr.coerceOperands, Bool.and_comm r.resolved]
  split
  next =>
    cases l.dataType? with
    | none => cases r.dataType? <;> exact comparison l r
    | some s =>
      cases r.dataType? with
      | none => exact comparison l r
      | some t =>
        simp only [DataType.common_comm t s, eq_comm (a := t)]
        split
        next => exact comparison l r
        next => exact comparison _ _
  next => exact comparison l r

theorem bindCast (casts : CastRegistry) (h : Mirrors op e e') :
    Mirrors op (e.bindCast casts) (e'.bindCast casts) := by
  obtain ⟨l, r⟩ := h
  exact comparison l r

theorem resolved_eq (h : Mirrors op e e') : e'.resolved = e.resolved := by
  obtain ⟨l, r⟩ := h
  exact Bool.and_comm _ _

/-- Mirror images are equal exactly if the expressions are. -/
theorem beq_eq {s s' : Expr} (h : Mirrors op e e') (hs : Mirrors op s s') :
    (e' == s') = (e == s) := by
  obtain ⟨l, r⟩ := h
  obtain ⟨l', r'⟩ := hs
  show (op.mirror == op.mirror && beq r r' && beq l l') = (op == op && beq l l' && beq r r')
  rw [beq_self_eq_true, beq_self_eq_true, Bool.and_right_comm]

end Mirrors

end Expr

/-! ### Mirror images of filters -/

namespace Plan

variable {op : ComparisonOp} {p p' q q' : Plan}

/-- The second plan is the first one, a filter, with the mirror image of its predicate. -/
inductive Mirrors (op : ComparisonOp) : Plan → Plan → Prop
  | filter (input : Plan) {e e' : Expr} (h : e.Mirrors op e') :
    Mirrors op (filter input e) (filter input e')

namespace Mirrors

theorem symm (h : Mirrors op p p') : Mirrors op.mirror p' p := by
  obtain ⟨input, h⟩ := h
  exact filter input h.symm

/-- The columns that an operator refers to are those of its input, which is the same. -/
theorem bindColumns (h : Mirrors op p p') : Mirrors op p.bindColumns p'.bindColumns := by
  obtain ⟨input, h⟩ := h
  have hschema (e : Expr) : (Plan.filter input e).inputSchema? =
      ([input].mapM resolvedSchema?).map List.flatten := rfl
  rw [Plan.bindColumns, Plan.bindColumns, hschema, hschema]
  split
  next columns _ => exact filter input (h.transformUp fun _ _ hs ↦ hs.bindColumn columns)
  next => exact filter input h

theorem transformExpressionsUp {f : Expr → Expr}
    (hf : ∀ e e', Expr.Mirrors op e e' → Expr.Mirrors op (f e) (f e')) (h : Mirrors op p p') :
    Mirrors op (p.transformExpressionsUp f) (p'.transformExpressionsUp f) := by
  obtain ⟨input, h⟩ := h
  exact filter _ (h.transformUp hf)

theorem resolved_eq (h : Mirrors op p p') : p'.resolved = p.resolved := by
  obtain ⟨input, h⟩ := h
  exact congrArg (input.resolved && ·) h.resolved_eq

theorem beq_eq (h : Mirrors op p p') (hq : Mirrors op q q') : (p' == q') = (p == q) := by
  obtain ⟨input, h⟩ := h
  obtain ⟨input', hq⟩ := hq
  exact congrArg (beq input input' && ·) (h.beq_eq hq)

end Mirrors

end Plan

/-- **Standard rules keep mirror images.** -/
theorem Rule.mirrors_apply {op : ComparisonOp} (ctx : Context) {r : Rule} (hr : r ∈ Rule.standard)
    {p p' : Plan} (h : p.Mirrors op p') : (r.apply ctx p).Mirrors op (r.apply ctx p') := by
  rcases mem_standard_iff.1 hr with rfl | rfl | rfl | rfl | rfl | rfl
  · obtain ⟨input, h⟩ := h
    exact .filter _ h
  · obtain ⟨input, h⟩ := h
    exact .filter _ h
  · obtain ⟨input, h⟩ := h
    exact (Plan.Mirrors.filter (input.transformUp Plan.bindColumns) h).bindColumns
  · exact h.transformExpressionsUp fun _ _ hs ↦ hs.bindCall ctx.catalog
  · exact h.transformExpressionsUp fun _ _ hs ↦ hs.coerceOperands
  · exact h.transformExpressionsUp fun _ _ hs ↦ hs.bindCast ctx.casts

namespace Analyzer

variable {a : Analyzer} {op : ComparisonOp} {p p' q q' : Plan}

/-! ### Analyses in step -/

/-- The mirror image of a filter settles with the same pass, and what it settles to is the mirror image
of what the filter settles to. -/
theorem exists_analyze_of_mirrors (hrules : a.rules = Rule.standard) (h : p.Mirrors op p')
    (hq : a.analyze p = .ok q) : ∃ q', a.analyze p' = .ok q' ∧ q.Mirrors op q' := by
  have hmirrors (k : Nat) : (a.pass^[k] p).Mirrors op (a.pass^[k] p') :=
    iterate_rel hrules (fun _ hr _ _ ↦ Rule.mirrors_apply a.toContext hr) h k
  have hstays (j : Nat) : (a.pass^[j + 1] p' == a.pass^[j] p') = (a.pass^[j + 1] p == a.pass^[j] p) :=
    (hmirrors (j + 1)).beq_eq (hmirrors j)
  obtain ⟨hsettle, hresolved⟩ := analyze_eq_ok_iff.1 hq
  obtain ⟨k, hk, rfl, hbeq, hfirst⟩ := settle_eq_ok_iff.1 hsettle
  refine ⟨a.pass^[k + 1] p', analyze_eq_ok_iff.2 ⟨settle_eq_ok_iff.2 ⟨k, hk, rfl, ?_, ?_⟩, ?_⟩,
    hmirrors (k + 1)⟩
  · exact (hstays k).trans hbeq
  · exact fun j hj ↦ (hstays j).trans (hfirst j hj)
  · exact (hmirrors (k + 1)).resolved_eq.trans hresolved

/-- **Comparisons do not depend on the order of their operands.** Let two filters over the same input
compare the same operands in either order, by an operator and by its mirror image, and let them be
analyzed with the standard rules, over any catalog and any casts. Then both analyses succeed or
neither does. If they do, the results are filters over the same input which compare the same operands,
in either order, and on every row both predicates have the same value or both fail.

Constructors of functions are functions of their arguments, so they make the same expression of a call
on either side. -/
theorem analyze_comparison_mirror (hrules : a.rules = Rule.standard) (input : Plan)
    (op : ComparisonOp) (l r : Expr) :
    ((∃ q, a.analyze (.filter input (.comparison op l r)) = .ok q) ↔
      ∃ q, a.analyze (.filter input (.comparison op.mirror r l)) = .ok q) ∧
    ∀ q q', a.analyze (.filter input (.comparison op l r)) = .ok q →
      a.analyze (.filter input (.comparison op.mirror r l)) = .ok q' →
      ∃ input' l' r', q = .filter input' (.comparison op l' r') ∧
        q' = .filter input' (.comparison op.mirror r' l') ∧
        ∀ row : Row, ((Expr.comparison op l' r').eval row).toOption =
          ((Expr.comparison op.mirror r' l').eval row).toOption := by
  have hmirrors : (Plan.filter input (.comparison op l r)).Mirrors op
      (.filter input (.comparison op.mirror r l)) := .filter input (.comparison l r)
  refine ⟨⟨fun ⟨q, hq⟩ ↦ ?_, fun ⟨q, hq⟩ ↦ ?_⟩, fun q q' hq hq' ↦ ?_⟩
  · obtain ⟨q', hq', -⟩ := exists_analyze_of_mirrors hrules hmirrors hq
    exact ⟨q', hq'⟩
  · obtain ⟨q', hq', -⟩ := exists_analyze_of_mirrors hrules hmirrors.symm hq
    exact ⟨q', hq'⟩
  · obtain ⟨_, hq'', ⟨input', ⟨l', r'⟩⟩⟩ := exists_analyze_of_mirrors hrules hmirrors hq
    obtain rfl := Except.ok.inj (hq'.symm.trans hq'')
    refine ⟨input', l', r', rfl, rfl, fun row ↦ ?_⟩
    -- The result is settled, so the operands are of one type.
    have hsettled := isSettled_of_analyze hrules hq
    have hresolved := hsettled.resolved_of_mem (Plan.self_mem_operators _) List.mem_cons_self
    rw [Expr.resolved, Bool.and_eq_true] at hresolved
    obtain ⟨t, hl⟩ := Expr.exists_dataType?_of_named (Expr.named_of_resolved hresolved.1)
    have htypes : l'.dataType? = r'.dataType? :=
      (hsettled.exprs _ (Plan.self_mem_operators _) _ List.mem_cons_self).self
    exact (Expr.toOption_eval_mirror op hl (htypes ▸ hl) row).symm

/-- Events from the seventh on, by a number that is widened on either side. -/
theorem analyze_comparison_mirror_seven :
    let events : Plan := .table "default" ⟨"events", [⟨"id", .integer, true, "events"⟩]⟩
    let seven : Expr := .literal (.bigInteger 7) .bigInteger
    let widen : BoundCast := ⟨.integer, .bigInteger,
      (Cast.ofInteger .bigInteger fun n ↦ .ok (.bigInteger n.toInt64)).function⟩
    let id : Expr := .cast (.field ⟨0, "events", "id", .integer, true⟩) .bigInteger (some widen)
    let a := Analyzer.ofCatalog .standard { maxIterations := 2 }
    (a.rules = Rule.standard ∧
      a.analyze (.filter events (.comparison .ge (.column none "ID") seven)) =
        .ok (.filter events (.comparison .ge id seven)) ∧
      a.analyze (.filter events (.comparison .le seven (.column none "ID"))) =
        .ok (.filter events (.comparison .le seven id))) ∧
      ∀ row : Row, ((Expr.comparison .ge id seven).eval row).toOption =
        ((Expr.comparison .le seven id).eval row).toOption := by
  intro events seven widen id a
  have hge : a.analyze (.filter events (.comparison .ge (.column none "ID") seven)) =
      .ok (.filter events (.comparison .ge id seven)) := analyze_eq_ok_of_pass_eq rfl rfl rfl le_rfl
  have hle : a.analyze (.filter events (.comparison .le seven (.column none "ID"))) =
      .ok (.filter events (.comparison .le seven id)) := analyze_eq_ok_of_pass_eq rfl rfl rfl le_rfl
  obtain ⟨input', l', r', hq, -, heval⟩ :=
    (analyze_comparison_mirror rfl events .ge (.column none "ID") seven).2 _ _ hge hle
  obtain ⟨-, hpredicate⟩ := Plan.filter.inj hq
  obtain ⟨-, rfl, rfl⟩ := Expr.comparison.inj hpredicate
  exact ⟨⟨rfl, hge, hle⟩, heval⟩

end Analyzer

end LogicalQuery
