/-!
# Data types

The scalar types of the query language, and the order of precedence by which two operands of
different types find a common one.
-/

namespace LogicalQuery

/-- A scalar type. -/
inductive DataType where
  /-- Integers of 32 bits. -/
  | integer
  /-- Integers of 64 bits. -/
  | bigInteger
  /-- Floating-point numbers of 64 bits. -/
  | float
  /-- Texts. -/
  | string
  /-- Truth values. -/
  | boolean
  /-- Moments by an integer of 64 bits, without a fixed unit. -/
  | timestamp
  /-- Moments in Coordinated Universal Time. -/
  | timestampTz
deriving DecidableEq, Repr

/-- How the values of a type are held. -/
inductive Representation where
  /-- By an integer of 32 bits. -/
  | int32
  /-- By an integer of 64 bits. -/
  | int64
  /-- By a floating-point number of 64 bits. -/
  | float64
  /-- By a text. -/
  | string
  /-- By a truth value. -/
  | bool
  /-- By an instant. -/
  | instant
deriving DecidableEq, Repr

namespace DataType

/-- Every type. -/
def all : List DataType :=
  [integer, bigInteger, float, string, boolean, timestamp, timestampTz]

/-- The name of the type in texts. -/
def name : DataType → String
  | integer => "integer"
  | bigInteger => "biginteger"
  | float => "float"
  | string => "string"
  | boolean => "boolean"
  | timestamp => "timestamp"
  | timestampTz => "timestamptz"

/-- How the values of the type are held. -/
def representation : DataType → Representation
  | integer => .int32
  | bigInteger | timestamp => .int64
  | float => .float64
  | string => .string
  | boolean => .bool
  | timestampTz => .instant

/-- Whether the type is a type of numbers. -/
def isNumeric : DataType → Bool
  | integer | bigInteger | float => true
  | _ => false

/-- The precedence of the type: of two types, the one with the higher rank prevails. -/
def rank : DataType → Nat
  | string => 0
  | boolean => 1
  | integer => 2
  | bigInteger => 3
  | float => 4
  | timestamp => 5
  | timestampTz => 6

/-- The type at which operands of two types are compared: the one of higher rank. -/
def common (left right : DataType) : DataType :=
  if right.rank ≤ left.rank then left else right

/-- The common type does not depend on the order of the operands. -/
theorem common_comm (s t : DataType) : common s t = common t s := by
  cases s <;> cases t <;> rfl

@[simp]
theorem common_self (t : DataType) : common t t = t := if_pos (Nat.le_refl _)

/-- The common type is the type of one of the operands. -/
theorem common_eq_or (s t : DataType) : common s t = s ∨ common s t = t := by
  unfold common
  split
  next => exact .inl rfl
  next => exact .inr rfl

/-- Where the common type of two types is the second one, that has the higher rank. -/
theorem rank_lt_of_common_eq {s t : DataType} (h : common s t = t) (hst : s ≠ t) :
    s.rank < t.rank := by
  unfold common at h
  split at h
  next => exact absurd h hst
  next hlt => exact Nat.lt_of_not_le hlt

end DataType

end LogicalQuery
