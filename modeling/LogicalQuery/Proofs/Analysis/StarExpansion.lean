import LogicalQuery.Expr.Eval
import LogicalQuery.Proofs.Expr.BoundForm

/-!
# Stars in projections

A star in a projection becomes all columns of the input, each bound to its position. The positions
are those by which rows are read, and the column that a bound column makes is the one that it is
bound to, with the table it comes from. So a star passes on the columns and the rows of its input as
they are (`Rule.resolveStar_project`), whatever the names and the tables of the columns, and whatever
else stands in the projection.
-/

namespace LogicalQuery

/-! ### The columns of an input, as expressions -/

namespace Plan

theorem outputColumns_bindAll (columns : List Column) :
    outputColumns (Column.bindAll columns) = .ok columns :=
  outputColumns_eq_ok_iff.2 (map_outputColumn_bindAll columns)

theorem outputColumns_append (es es' : List Expr) :
    outputColumns (es ++ es') = do
      let columns ← outputColumns es
      let columns' ← outputColumns es'
      return columns ++ columns' := by
  rw [outputColumns, outputColumns, outputColumns, List.mapM_append]
  cases es.mapM Expr.outputColumn with
  | error _ => rfl
  | ok columns => cases es'.mapM Expr.outputColumn <;> rfl

/-- Blocks of expressions make their columns one block after the other. -/
theorem outputColumns_flatten (blocks : List (List Expr)) :
    outputColumns blocks.flatten = (blocks.mapM outputColumns).map List.flatten := by
  induction blocks with
  | nil => rfl
  | cons es blocks ih =>
    rw [List.flatten_cons, outputColumns_append, ih, List.mapM_cons]
    cases outputColumns es with
    | error _ => rfl
    | ok columns => cases blocks.mapM outputColumns <;> rfl

end Plan

namespace Expr

/-- On a row of their length, bound columns have the values of the row, in their order. -/
theorem mapM_eval_bindAll {columns : List Column} {row : Row} (h : row.size = columns.length) :
    (Column.bindAll columns).mapM (eval row) = .ok row.fields := by
  rw [mapM_eq_ok_iff, Column.bindAll, List.map_map]
  refine List.ext_getElem ?_ fun i hi hi' ↦ ?_
  · rw [List.length_map, List.length_map, List.length_zipIdx, ← h, Row.size]
  · rw [List.length_map] at hi'
    simp [Column.bind, eval, Row.get?, hi']

/-- What an expression of a projection is replaced by, over an input with the given columns. A star
is replaced by bound columns, one for each position. They make the columns of the input, and have
the values of its rows. Any other expression stays. -/
inductive ReplacedBy (columns : List Column) : Expr → List Expr → Prop
  | other {e : Expr} (h : e ≠ star) : ReplacedBy columns e [e]
  | star {fields : List Field}
      (hindex : fields.map Field.index = List.range columns.length)
      (hcolumns : Plan.outputColumns (fields.map field) = .ok columns)
      (heval : ∀ row : Row, row.size = columns.length →
        (fields.map field).mapM (eval row) = .ok row.fields) :
      ReplacedBy columns star (fields.map field)

theorem replacedBy_star (columns : List Column) :
    ReplacedBy columns star (Column.bindAll columns) := by
  have hcolumns := Plan.outputColumns_bindAll columns
  have heval (row : Row) (h : row.size = columns.length) := mapM_eval_bindAll h
  rw [Column.bindAll_eq] at hcolumns heval ⊢
  exact .star (Column.map_index_toFields columns) hcolumns heval

/-- Each expression of a projection is replaced in its place. -/
theorem exists_replacedBy (columns : List Column) (es : List Expr) :
    ∃ blocks, expandStars columns es = blocks.flatten ∧
      List.Forall₂ (ReplacedBy columns) es blocks := by
  refine ⟨_, List.flatMap_def, ?_⟩
  rw [List.forall₂_map_right_iff, List.forall₂_same]
  intro e _
  cases he : e.isStar with
  | false =>
    refine .other ?_
    rintro rfl
    cases he
  | true =>
    obtain rfl := eq_star_of_isStar he
    exact replacedBy_star columns

end Expr

/-! ### Projections -/

/-- **A star passes on the columns and the rows of its input.** Stars are first expanded in the input
of a projection, which changes nothing in a resolved input. If the input is then resolved, it has
columns, and each expression of the projection is replaced in its place: a star by all columns of the
input, which make these columns and have the values of its rows, and any other expression by itself.
The columns of the projection are those of its expressions, one after the other. If the input is not
resolved, then the projection keeps its expressions. -/
theorem Rule.resolveStar_project (ctx : Context) (input : Plan) (es : List Expr) :
    let input' := Rule.resolveStar.apply ctx input
    (input.resolved = true → input' = input) ∧
    (input'.resolved = true → ∃ columns blocks,
      input'.schema = .ok columns ∧ List.Forall₂ (Expr.ReplacedBy columns) es blocks ∧
      Rule.resolveStar.apply ctx (.project input es) = .project input' blocks.flatten ∧
      (Plan.project input' blocks.flatten).schema =
        (blocks.mapM Plan.outputColumns).map List.flatten) ∧
    (input'.resolved = false →
      Rule.resolveStar.apply ctx (.project input es) = .project input' es) := by
  intro input'
  have happly : Rule.resolveStar.apply ctx (.project input es) =
      (Plan.project input' es).expandStars := Plan.transformUp_eq Plan.expandStars _
  refine ⟨Plan.transformUp_expandStars_eq, fun h ↦ ?_, fun h ↦ ?_⟩
  · obtain ⟨columns, hcolumns⟩ := Plan.exists_schema_of_named (Plan.named_of_resolved h)
    obtain ⟨blocks, hexpand, hblocks⟩ := Expr.exists_replacedBy columns es
    refine ⟨columns, blocks, hcolumns, hblocks, ?_, Plan.outputColumns_flatten blocks⟩
    rw [happly, Plan.expandStars, Plan.resolvedSchema?_eq_some_iff.2 ⟨h, hcolumns⟩, ← hexpand]
  · rw [happly, Plan.expandStars, Plan.resolvedSchema?, h, if_neg Bool.false_ne_true]

/-- Of the two columns of the input, one has no table, and their names differ in case only. -/
theorem Rule.resolveStar_project_twins :
    let events : Plan := .table "default" ⟨"events", [⟨"id", .integer, false, "events"⟩]⟩
    let id : Expr := .field ⟨0, "events", "id", .integer, false⟩
    let twin : Expr := .field ⟨1, "", "ID", .integer, false⟩
    let seven : Expr := .literal (.integer 7) .integer
    let twins : Plan := .project events [id, .renamed id "ID"]
    let ctx := (Analyzer.ofCatalog .standard {}).toContext
    twins.resolved = true ∧ ∃ columns blocks,
      twins.schema = .ok columns ∧
      List.Forall₂ (Expr.ReplacedBy columns) [.star, seven, .star] blocks ∧
      Rule.resolveStar.apply ctx (.project twins [.star, seven, .star]) =
        .project twins blocks.flatten ∧
      blocks.flatten = [id, twin, seven, id, twin] := by
  intro events id twin seven twins ctx
  obtain ⟨hinput, hreplaced, -⟩ := Rule.resolveStar_project ctx twins [.star, seven, .star]
  have hresolved : twins.resolved = true := rfl
  rw [hinput hresolved] at hreplaced
  obtain ⟨columns, blocks, hcolumns, hblocks, happly, -⟩ := hreplaced hresolved
  have hexpanded : Rule.resolveStar.apply ctx (.project twins [.star, seven, .star]) =
      .project twins [id, twin, seven, id, twin] := rfl
  exact ⟨hresolved, columns, blocks, hcolumns, hblocks, happly,
    (Plan.project.inj (happly.symm.trans hexpanded)).2⟩

end LogicalQuery
