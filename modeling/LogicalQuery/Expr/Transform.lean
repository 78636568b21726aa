import LogicalQuery.Expr.Typing

/-!
# Transforming expressions

A transformation works from the leaves up: the children of a node are transformed from left to
right, the node is rebuilt over them, and the rebuilt node is handed to the function. A rebuilt
cast keeps its binding as long as the type of its child is the one that the binding is for.
-/

namespace LogicalQuery.Expr

/-- Whether a bound cast is for the type of the expression. -/
def fits (child : Expr) (c : BoundCast) : Bool := child.dataType? == some c.source

/-- A cast over a new child, bound as before if the binding is for the type of that child. -/
def recast (child : Expr) (target : DataType) (bound : Option BoundCast) : Expr :=
  cast child target (bound.filter child.fits)

/-- The node rebuilt with each child replaced by its image. -/
def mapChildren (f : Expr → Expr) : Expr → Expr
  | renamed e n => renamed (f e) n
  | not e => not (f e)
  | comparison op l r => comparison op (f l) (f r)
  | cast e t b => recast (f e) t b
  | call n es => call n (es.map f)
  | aggregate g e => aggregate g (f e)
  | e@(literal _ _) | e@star | e@(column _ _) | e@(field _) => e

mutual

/-- Transforms an expression from the leaves up, with an effect for each node. -/
def transformUpM {m : Type → Type} [Monad m] (f : Expr → m Expr) : Expr → m Expr
  | renamed e n => do f (renamed (← e.transformUpM f) n)
  | not e => do f (not (← e.transformUpM f))
  | comparison op l r => do
    let l ← l.transformUpM f
    let r ← r.transformUpM f
    f (comparison op l r)
  | cast e t b => do f (recast (← e.transformUpM f) t b)
  | call n es => do f (call n (← transformAllUpM f es))
  | aggregate g e => do f (aggregate g (← e.transformUpM f))
  | literal v t => f (literal v t)
  | star => f star
  | column q n => f (column q n)
  | field g => f (field g)

/-- Transforms several expressions, from the first to the last. -/
def transformAllUpM {m : Type → Type} [Monad m] (f : Expr → m Expr) : List Expr → m (List Expr)
  | [] => pure []
  | e :: es => do
    let e ← e.transformUpM f
    let es ← transformAllUpM f es
    return e :: es

end

/-- Transforms an expression from the leaves up. -/
def transformUp (f : Expr → Expr) (e : Expr) : Expr :=
  Id.run (e.transformUpM fun e ↦ pure (f e))

theorem run_transformAllUpM (f : Expr → Expr) (es : List Expr) :
    Id.run (transformAllUpM (fun e ↦ pure (f e)) es) = es.map (transformUp f) := by
  induction es with
  | nil => rfl
  | cons e es ih => simp [transformAllUpM, ih, transformUp]

/-- A transformation applies its function to the node rebuilt over the transformed children. -/
theorem transformUp_eq (f : Expr → Expr) (e : Expr) :
    e.transformUp f = f (e.mapChildren (transformUp f)) := by
  cases e with
  | call n es => exact congrArg (fun es ↦ f (call n es)) (run_transformAllUpM f es)
  | _ => rfl

end LogicalQuery.Expr
