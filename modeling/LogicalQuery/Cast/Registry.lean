import LogicalQuery.Error

/-!
# The cast registry

A cast is a function from the values of one type to those of another. A registry holds at most
one cast for each ordered pair of types, in the order of first registration; registering a pair
again replaces its function in place. Every type casts to itself by the identity.
-/

namespace LogicalQuery

/-- A function from the values of one type to those of another. It is not called on null by bound
casts. -/
abbrev CastFunction := Value → Except Error Value

/-- A function registered for a pair of types. -/
structure Cast where
  /-- The type of the argument. -/
  source : DataType
  /-- The type of the result. -/
  target : DataType
  /-- What is done with a value. -/
  function : CastFunction

/-- The casts in use, by pair of types. -/
structure CastRegistry where
  /-- The casts, in the order in which their pairs were first registered. -/
  casts : List Cast

namespace CastRegistry

/-- The registry without casts. -/
def empty : CastRegistry := ⟨[]⟩

instance : EmptyCollection CastRegistry := ⟨empty⟩

/-- Whether a cast is the one for the given pair of types. -/
def isFor (source target : DataType) (c : Cast) : Bool :=
  c.source == source && c.target == target

/-- Puts a cast in the place of the first one for its pair, or else at the end. -/
def insertInto (c : Cast) : List Cast → List Cast
  | [] => [c]
  | d :: ds => if isFor c.source c.target d then c :: ds else d :: insertInto c ds

/-- Registers a cast. -/
def register (r : CastRegistry) (c : Cast) : CastRegistry := ⟨insertInto c r.casts⟩

/-- The registry after registering casts one by one. -/
def ofList (casts : List Cast) : CastRegistry := casts.foldl register empty

/-- The function that casts from one type to another: the identity on a single type, and otherwise
the one that is registered. -/
def function (r : CastRegistry) (source target : DataType) : Except Error CastFunction :=
  if source = target then .ok .ok
  else
    match r.casts.find? (isFor source target) with
    | some c => .ok c.function
    | none => .error (.noSuchCast source target)

/-- Whether a cast is registered for the pair of types. -/
def contains (r : CastRegistry) (source target : DataType) : Bool :=
  r.casts.any (isFor source target)

/-- The number of casts. -/
def size (r : CastRegistry) : Nat := r.casts.length

/-- Whether no cast is registered. -/
def isEmpty (r : CastRegistry) : Bool := r.casts.isEmpty

/-- The pairs of types that have a cast, in the order of first registration. -/
def pairs (r : CastRegistry) : List (DataType × DataType) :=
  r.casts.map fun c ↦ (c.source, c.target)

theorem function_self (r : CastRegistry) (t : DataType) : r.function t t = .ok .ok := by
  simp [function]

/-- A pair finds the cast that was put in for it last, and every other pair finds what it found. -/
theorem find?_insertInto (c : Cast) (casts : List Cast) (source target : DataType) :
    (insertInto c casts).find? (isFor source target) =
      if isFor source target c then some c else casts.find? (isFor source target) := by
  induction casts with
  | nil => cases h : isFor source target c <;> simp [insertInto, h]
  | cons d ds ih =>
    simp only [insertInto]
    split
    next hd =>
      have : isFor source target d = isFor source target c := by
        simp only [isFor, Bool.and_eq_true, beq_iff_eq] at hd
        simp only [isFor, hd.1, hd.2]
      simp only [List.find?_cons, this]
      cases isFor source target c <;> rfl
    next hd =>
      cases hs : isFor source target d with
      | false => simp only [List.find?_cons, hs, ih]
      | true =>
        simp only [List.find?_cons, hs]
        rw [if_neg]
        simp only [isFor, Bool.and_eq_true, beq_iff_eq] at hs hd ⊢
        exact fun hc ↦ hd ⟨hs.1.trans hc.1.symm, hs.2.trans hc.2.symm⟩

end CastRegistry

end LogicalQuery
