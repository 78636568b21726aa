import LogicalQuery.Expr.Eval
import LogicalQuery.Proofs.Cast.Standard
import LogicalQuery.Proofs.Expr.Shape
import LogicalQuery.Proofs.Outcome
import LogicalQuery.Proofs.Value.Conformity

/-!
# Type soundness of expressions

The rules by which expressions over the columns of a row have types, and the values that such
expressions have on rows that conform to the columns: a value that fits the type of the expression,
and is null only if the expression is nullable. The only failure is that of a cast to an instant
whose argument overflows (`HasType.eval_sound`).
-/

namespace LogicalQuery

namespace Expr

/-! ### Typing -/

/-- An expression without aggregates has a type, given the casts and the columns of the input,
which stand without their names. -/
inductive HasType (casts : CastRegistry) (cs : List Column) : Expr → DataType → Prop
  | literal {v : Value} {t : DataType} (h : v = .null ∨ t.check v = true) :
      HasType casts cs (.literal v t) t
  | field {f : Field} (h : cs[f.index]? = some f.column) : HasType casts cs (.field f) f.type
  | renamed {e : Expr} {t : DataType} (n : String) (h : HasType casts cs e t) :
      HasType casts cs (.renamed e n) t
  | not {e : Expr} (h : HasType casts cs e .boolean) : HasType casts cs (.not e) .boolean
  | comparison {l r : Expr} {t : DataType} (op : ComparisonOp) (hl : HasType casts cs l t)
      (hr : HasType casts cs r t) : HasType casts cs (.comparison op l r) .boolean
  | cast {e : Expr} {source target : DataType} {f : CastFunction} (h : HasType casts cs e source)
      (hf : casts.function source target = .ok f) :
      HasType casts cs (.cast e target (some ⟨source, target, f⟩)) target

variable {casts : CastRegistry} {cs : List Column}

/-- The type of an expression is the one that it declares. -/
theorem HasType.dataType_eq {e : Expr} {t : DataType} (h : HasType casts cs e t) :
    e.dataType = .ok t := by
  induction h with
  | literal _ | field _ | not _ _ | comparison _ _ _ _ _ | cast _ _ _ => rfl
  | renamed _ _ ih => exact ih

/-! ### Evaluation -/

/-- The error is that of a cast to an instant in the expression whose argument, on the given row,
overflows. -/
def OverflowsOn (e : Expr) (row : Row) (err : Error) : Prop :=
  ∃ child bound v, cast child .timestampTz (some bound) ∈ e.subexprs ∧
    child.eval row = .ok v ∧ bound.apply v = .error err ∧ err = .overflow v .timestampTz

theorem OverflowsOn.of_mem_children {e c : Expr} {row : Row} {err : Error}
    (h : c.OverflowsOn row err) (hc : c ∈ e.children) : e.OverflowsOn row err := by
  obtain ⟨child, bound, v, hmem, h⟩ := h
  exact ⟨child, bound, v, mem_subexprs_iff.2 (.inr ⟨c, hc, hmem⟩), h⟩

/-- On the row, the expression has a value of the type, or null if it is nullable, or the argument
of a cast to an instant overflows. -/
def EvalFits (e : Expr) (t : DataType) (row : Row) : Prop :=
  (∃ v, e.eval row = .ok v ∧ v.Fits t e.nullable) ∨
    ∃ err, e.eval row = .error err ∧ e.OverflowsOn row err

theorem evalFits_not {e : Expr} {row : Row} (h : e.EvalFits .boolean row) :
    (not e).EvalFits .boolean row := by
  rcases h with ⟨v, hv, hfits⟩ | ⟨err, herr, hover⟩
  · rcases hfits with ⟨rfl, hnull⟩ | hcheck
    · refine .inl ⟨.null, ?_, .inl ⟨rfl, hnull⟩⟩
      rw [eval, hv]
      rfl
    · cases v with
      | boolean b =>
        refine .inl ⟨.boolean !b, ?_, .inr rfl⟩
        rw [eval, hv]
        rfl
      | _ => exact nomatch hcheck
  · refine .inr ⟨err, ?_, hover.of_mem_children List.mem_cons_self⟩
    rw [eval, herr]
    rfl

theorem evalFits_comparison {op : ComparisonOp} {l r : Expr} {t : DataType} {row : Row}
    (ht : l.dataType = .ok t) (hl : l.EvalFits t row) (hr : r.EvalFits t row) :
    (comparison op l r).EvalFits .boolean row := by
  rcases hl with ⟨v, hv, hvfits⟩ | ⟨err, herr, hover⟩
  · rcases hr with ⟨w, hw, hwfits⟩ | ⟨err, herr, hover⟩
    · have heval : (comparison op l r).eval row =
          if v.isNull || w.isNull then .ok .null
          else t.compare v w >>= fun order ↦ .ok (.boolean (op.holds order)) := by
        rw [eval, hv, hw, ht]
        rfl
      -- Only values that are not null are compared, and these belong to the common type.
      cases hnull : v.isNull || w.isNull with
      | true =>
        rw [hnull, if_pos rfl] at heval
        refine .inl ⟨.null, heval, .inl ⟨rfl, ?_⟩⟩
        rw [Bool.or_eq_true] at hnull
        rw [nullable, Bool.or_eq_true]
        exact hnull.imp hvfits.nullable hwfits.nullable
      | false =>
        rw [hnull, if_neg Bool.false_ne_true] at heval
        rw [Bool.or_eq_false_iff] at hnull
        obtain ⟨o, ho⟩ := DataType.exists_compare (hvfits.check hnull.1) (hwfits.check hnull.2)
        rw [ho] at heval
        exact .inl ⟨.boolean (op.holds o), heval, .inr rfl⟩
    · refine .inr ⟨err, ?_, hover.of_mem_children (List.mem_cons_of_mem l List.mem_cons_self)⟩
      rw [eval, hv, herr]
      rfl
  · refine .inr ⟨err, ?_, hover.of_mem_children List.mem_cons_self⟩
    rw [eval, herr]
    rfl

theorem evalFits_cast (hcasts : casts.Sound) {e : Expr} {source target : DataType}
    {f : CastFunction} (hf : casts.function source target = .ok f) {row : Row}
    (h : e.EvalFits source row) :
    (cast e target (some ⟨source, target, f⟩)).EvalFits target row := by
  rcases h with ⟨v, hv, hfits⟩ | ⟨err, herr, hover⟩
  · have heval : (cast e target (some ⟨source, target, f⟩)).eval row =
        BoundCast.apply ⟨source, target, f⟩ v := by
      rw [eval, hv]
      rfl
    cases hnull : v.isNull with
    | true =>
      rw [BoundCast.apply, hnull, if_pos rfl] at heval
      exact .inl ⟨.null, heval, .inl ⟨rfl, hfits.nullable hnull⟩⟩
    | false =>
      have happly : BoundCast.apply ⟨source, target, f⟩ v = f v := by
        rw [BoundCast.apply, hnull, if_neg Bool.false_ne_true]
      rcases hcasts source target f hf v (hfits.check hnull) with ⟨w, hw, hcheck⟩ | ⟨rfl, herr⟩
      · exact .inl ⟨w, heval.trans (happly.trans hw), .inr hcheck⟩
      · refine .inr ⟨_, heval.trans (happly.trans herr), ?_⟩
        exact ⟨e, _, v, self_mem_subexprs _, hv, happly.trans herr, rfl⟩
  · refine .inr ⟨err, ?_, hover.of_mem_children List.mem_cons_self⟩
    rw [eval, herr]
    rfl

/-- **Type soundness.** On a row that conforms to the columns, an expression with a type has a value
of that type, or null if it is nullable, unless the argument of a cast to an instant overflows. -/
theorem HasType.eval_sound (hcasts : casts.Sound) {row : Row} {columns : List Column}
    (hcs : cs = columns.map Column.unnamed) (hrow : row.Conforms columns) {e : Expr} {t : DataType}
    (h : HasType casts cs e t) : e.EvalFits t row := by
  induction h with
  | literal h =>
    rcases h with rfl | h
    · exact .inl ⟨_, rfl, .inl ⟨rfl, rfl⟩⟩
    · exact .inl ⟨_, rfl, .inr h⟩
  | @field f h =>
    -- The row has a value that fits the column which the field is bound to.
    rw [hcs, List.getElem?_map, Option.map_eq_some_iff] at h
    obtain ⟨c, hc, hunnamed⟩ := h
    obtain ⟨v, hv, hfits⟩ := hrow.exists_get? hc
    have htype : c.type = f.type := congrArg Column.type hunnamed
    have hnullable : c.nullable = f.nullable := congrArg Column.nullable hunnamed
    refine .inl ⟨v, ?_, ?_⟩
    · rw [eval, hv]
    · rwa [← htype, nullable, ← hnullable]
  | renamed n h ih =>
    rcases ih with h | ⟨err, herr, hover⟩
    · exact .inl h
    · exact .inr ⟨err, herr, hover.of_mem_children List.mem_cons_self⟩
  | not h ih => exact evalFits_not ih
  | comparison op hl hr ihl ihr => exact evalFits_comparison hl.dataType_eq ihl ihr
  | cast h hf ih => exact evalFits_cast hcasts hf ih

end Expr

end LogicalQuery
