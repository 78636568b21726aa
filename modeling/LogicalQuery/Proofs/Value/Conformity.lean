import LogicalQuery.Row
import LogicalQuery.Schema
import LogicalQuery.Value.Comparison
import Mathlib.Data.List.Forall2

/-!
# Values that fit

A value fits a type if it belongs to the type, or if it is null where null is allowed. A row
conforms to columns if it has one value for each column, and each value fits its column.
-/

namespace LogicalQuery

/-- The value is null and null is allowed, or it belongs to the type. -/
def Value.Fits (v : Value) (t : DataType) (nullable : Bool) : Prop :=
  (v = .null ∧ nullable = true) ∨ t.check v = true

namespace Value

variable {v : Value} {t : DataType} {n : Bool}

theorem Fits.check (h : v.Fits t n) (hv : v.isNull = false) : t.check v = true := by
  rcases h with ⟨rfl, -⟩ | h
  · exact nomatch hv
  · exact h

theorem Fits.nullable (h : v.Fits t n) (hv : v.isNull = true) : n = true := by
  rcases h with ⟨-, h⟩ | h
  · exact h
  · cases v <;> cases t <;> trivial

end Value

/-- The values of a type are ordered. -/
theorem DataType.exists_compare {t : DataType} {v w : Value} (hv : t.check v = true)
    (hw : t.check w = true) : ∃ o, t.compare v w = .ok o := by
  rw [DataType.check_iff] at hv hw
  cases v <;> cases hv <;> cases w <;> cases hw <;> exact ⟨_, rfl⟩

/-- The row has one value for each column, and each value fits its column. -/
def Row.Conforms (r : Row) (cs : List Column) : Prop :=
  List.Forall₂ (fun v (c : Column) ↦ v.Fits c.type c.nullable) r.fields cs

/-- A row that conforms to columns has a value that fits at the position of each column. -/
theorem Row.Conforms.exists_get? {r : Row} {cs : List Column} (h : r.Conforms cs) {i : Nat}
    {c : Column} (hc : cs[i]? = some c) : ∃ v, r.get? i = some v ∧ v.Fits c.type c.nullable := by
  obtain ⟨hi, rfl⟩ := List.getElem?_eq_some_iff.1 hc
  have hi' : i < r.fields.length := h.length_eq ▸ hi
  exact ⟨r.fields[i], List.getElem?_eq_getElem hi', h.get hi' hi⟩

end LogicalQuery
