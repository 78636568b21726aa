import LogicalQuery.Binary64.Single
import LogicalQuery.Value.Basic

/-!
# Embedding of host types

`ToValue` turns data of the host program into values. Integers take the least type that holds
all numbers of their width, and an absent optional becomes null.
-/

namespace LogicalQuery

/-- Types whose elements are values of the query language. -/
class ToValue (α : Type) where
  /-- The value that an element stands for. -/
  toValue : α → Value

export ToValue (toValue)

instance : ToValue Value := ⟨id⟩

instance : ToValue Int8 := ⟨fun n ↦ .integer n.toInt32⟩

instance : ToValue Int16 := ⟨fun n ↦ .integer n.toInt32⟩

instance : ToValue Int32 := ⟨.integer⟩

instance : ToValue UInt8 := ⟨fun n ↦ .integer (Int32.ofNat n.toNat)⟩

instance : ToValue UInt16 := ⟨fun n ↦ .integer (Int32.ofNat n.toNat)⟩

instance : ToValue Int64 := ⟨.bigInteger⟩

instance : ToValue UInt32 := ⟨fun n ↦ .bigInteger (Int64.ofNat n.toNat)⟩

instance : ToValue Binary32 := ⟨fun x ↦ .float x.toBinary64⟩

instance : ToValue Binary64 := ⟨.float⟩

instance : ToValue Bool := ⟨.boolean⟩

instance : ToValue String := ⟨.string⟩

instance : ToValue Instant := ⟨.timestampTz⟩

instance {α : Type} [ToValue α] : ToValue (Option α) :=
  ⟨fun x? ↦ (x?.map toValue).getD .null⟩

end LogicalQuery
