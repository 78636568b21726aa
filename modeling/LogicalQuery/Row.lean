import LogicalQuery.Value.Basic

/-!
# Rows

A row is a sequence of values with positions from zero. Aggregates also use one as the buffer in
which they accumulate.
-/

namespace LogicalQuery

/-- A sequence of values. -/
structure Row where
  /-- The values, in their order. -/
  fields : List Value
deriving DecidableEq

namespace Row

/-- The value at a position. -/
def get? (r : Row) (i : Nat) : Option Value := r.fields[i]?

/-- The row with another value at a position, if the row has that position. -/
def set? (r : Row) (i : Nat) (v : Value) : Option Row :=
  if i < r.fields.length then some ⟨r.fields.set i v⟩ else none

/-- The number of fields. -/
def size (r : Row) : Nat := r.fields.length

/-- Whether the row has no field. -/
def isEmpty (r : Row) : Bool := r.fields.isEmpty

theorem set?_eq_some_iff {r s : Row} {i : Nat} {v : Value} :
    r.set? i v = some s ↔ i < r.fields.length ∧ ⟨r.fields.set i v⟩ = s := by
  rw [set?]
  split
  next hi => rw [and_iff_right hi, Option.some.injEq]
  next hi => exact iff_of_false (fun h ↦ nomatch h) fun h ↦ hi h.1

theorem get?_set? {r s : Row} {i : Nat} {v : Value} (h : r.set? i v = some s) (j : Nat) :
    s.get? j = if i = j then some v else r.get? j := by
  obtain ⟨hi, rfl⟩ := set?_eq_some_iff.1 h
  simp only [get?, List.getElem?_set, hi, if_true]

theorem size_set? {r s : Row} {i : Nat} {v : Value} (h : r.set? i v = some s) :
    s.size = r.size := by
  obtain ⟨-, rfl⟩ := set?_eq_some_iff.1 h
  exact List.length_set

end Row

end LogicalQuery
