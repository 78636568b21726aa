import LogicalQuery.Expr.Eval

/-!
# Aggregates

An aggregate is evaluated over the rows of a group, through a buffer: a row whose first field
holds the count or the value found so far. Rows are folded into a buffer by `update`, and the
buffers of two parts of a group are combined by `merge`, the one of the earlier part first. The
result is read by `result`. A step that fails leaves the buffer as it was.

`accumulate` folds all rows of a group into one buffer. `accumulatePartitioned` gives each part
of a given size a buffer of its own and merges the buffers in their order.
-/

namespace LogicalQuery

/-- An aggregate function over the values of an expression. -/
structure Aggregate where
  /-- The function. -/
  function : AggregateFunction
  /-- The expression whose values are aggregated. -/
  child : Expr

/-- A step on the buffer of an aggregate. It may fail, and the buffer survives a failure. -/
abbrev BufferM := ExceptT Error (StateM Row)

namespace Aggregate

/-- The aggregate as an expression. -/
def toExpr (a : Aggregate) : Expr := .aggregate a.function a.child

/-- Whether every row counts, whatever its values. -/
def countsRows (a : Aggregate) : Bool := a.function == .count && a.child.isStar

/-- The buffer before the first row. -/
def newBuffer (a : Aggregate) : Row :=
  match a.function with
  | .count => ⟨[.integer 0]⟩
  | .first => ⟨[.null]⟩

/-! ### The field of a buffer -/

/-- The value in the first field of a buffer. -/
def slot (buffer : Row) : Except Error Value :=
  match buffer.get? 0 with
  | some v => .ok v
  | none => .error (.invalidExpression .emptyBuffer)

/-- The count in the first field of a buffer. -/
def counter (buffer : Row) : Except Error Int32 := do
  match ← slot buffer with
  | .integer n => return n
  | v => throw (.typeMismatch .integer v.dataType?)

/-- Puts a value into the first field of the buffer. -/
def store (v : Value) : BufferM Unit := do
  match (← get).set? 0 v with
  | some buffer => set buffer
  | none => throw (.invalidExpression .emptyBuffer)

/-- The sum of two counts. -/
def addCounts (a b : Int32) : Except Error Int32 :=
  if Int32.minValue.toInt ≤ a.toInt + b.toInt ∧ a.toInt + b.toInt ≤ Int32.maxValue.toInt then
    .ok (a + b)
  else .error (.countOverflow a b)

/-! ### Steps -/

/-- Folds a row into the buffer. Once a first value is found, later rows are not evaluated. -/
def update (a : Aggregate) (row : Row) : BufferM Unit := do
  match a.function with
  | .count =>
    let counted ← if a.countsRows then pure true else (fun v ↦ !v.isNull) <$> a.child.eval row
    if counted then
      let n ← counter (← get)
      store (.integer (← addCounts n 1))
  | .first =>
    if (← slot (← get)).isNull then store (← a.child.eval row)

/-- Combines the buffer with the buffer of a later part of the group. -/
def merge (a : Aggregate) (later : Row) : BufferM Unit := do
  match a.function with
  | .count =>
    let n ← counter (← get)
    let m ← counter later
    store (.integer (← addCounts n m))
  | .first =>
    if (← slot (← get)).isNull then store (← slot later)

/-- The result that a buffer holds. -/
def result (a : Aggregate) (buffer : Row) : Except Error Value :=
  match a.function with
  | .count => (counter buffer).map .integer
  | .first => slot buffer

/-- The buffer after a step, or the error of the step. -/
def after (step : BufferM Unit) (buffer : Row) : Except Error Row :=
  match step.run.run buffer with
  | (.ok (), buffer) => .ok buffer
  | (.error e, _) => .error e

/-! ### Groups -/

/-- The buffer after folding rows into a new one, or the first error. -/
def fold (a : Aggregate) (rows : List Row) : Except Error Row :=
  rows.foldlM (fun buffer row ↦ after (a.update row) buffer) a.newBuffer

/-- The aggregate of a group. -/
def accumulate (a : Aggregate) (rows : List Row) : Except Error Value := do
  a.result (← a.fold rows)

/-- A list cut into parts of `size` elements, of which the last may be shorter. A size of zero
counts as one. -/
def parts {α : Type} (size : Nat) (l : List α) : List (List α) :=
  match l with
  | [] => []
  | x :: xs => (x :: xs).take (max size 1) :: parts size ((x :: xs).drop (max size 1))
termination_by l.length
decreasing_by simp only [List.length_drop, List.length_cons]; omega

/-- The parts hold every element once, in its place. -/
theorem flatten_parts {α : Type} (size : Nat) (l : List α) : (parts size l).flatten = l := by
  fun_induction parts size l with
  | case1 => rfl
  | case2 x xs ih => rw [List.flatten_cons, ih, List.take_append_drop]

/-- The aggregate of a group that is cut into parts, each with its own buffer. -/
def accumulatePartitioned (a : Aggregate) (size : Nat) (rows : List Row) : Except Error Value := do
  let buffers ← (parts size rows).mapM a.fold
  a.result (← buffers.foldlM (fun buffer later ↦ after (a.merge later) buffer) a.newBuffer)

end Aggregate

end LogicalQuery
