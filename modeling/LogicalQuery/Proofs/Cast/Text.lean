import LogicalQuery.Cast.Standard
import LogicalQuery.Proofs.Binary64.Text
import LogicalQuery.Proofs.Value.Integer

/-!
# Casts to texts lose nothing

The text to which a standard cast takes a number casts back to this number, and the text also
converts to it: for integers, whatever their size, and for floating-point numbers, bit by bit. NaNs
are the only exception.
-/

namespace LogicalQuery

open LogicalQuery.Text

/-! ### Conversions -/

namespace DataType

/-- What is written for a number of 64 bits converts to the number, in each type of integers that
holds it, and overflows the others. -/
theorem convert_toString (n : Int64) :
    convert .bigInteger (.string (toString n.toInt)) = .ok (.bigInteger n) ∧
    convert .timestamp (.string (toString n.toInt)) = .ok (.timestamp n) ∧
    convert .integer (.string (toString n.toInt)) =
      if integer.HoldsInt n.toInt then .ok (.integer n.toInt32)
      else .error (.overflow (.string (toString n.toInt)) .integer) := by
  have hint (target : DataType) : integerOf target (.string (toString n.toInt)) = .ok n := by
    rw [integerOf, readInt64_toString]
  refine ⟨?_, ?_, ?_⟩
  · rw [convert_bigInteger_eq (by simp), hint]
    rfl
  · rw [convert_timestamp_eq (by simp), hint]
    rfl
  · rw [convert_integer_eq (by simp), hint, ok_bind]
    cases hm : narrow? n with
    | none => rw [if_neg (narrow?_eq_none_iff.1 hm)]
    | some m =>
      have hholds : integer.HoldsInt n.toInt := by
        rw [narrow?_eq_some_iff.1 hm]
        exact ⟨m.le_toInt, m.toInt_lt⟩
      rw [if_pos hholds, toInt32_eq_of_narrow? hm]

/-- What is written for a number of 32 bits converts to the number in every type of integers. -/
theorem convert_toString_int32 (n : Int32) :
    convert .bigInteger (.string (toString n.toInt)) = .ok (.bigInteger n.toInt64) ∧
    convert .timestamp (.string (toString n.toInt)) = .ok (.timestamp n.toInt64) ∧
    convert .integer (.string (toString n.toInt)) = .ok (.integer n) := by
  have h := convert_toString n.toInt64
  have hholds : integer.HoldsInt n.toInt := ⟨n.le_toInt, n.toInt_lt⟩
  rwa [Int32.toInt_toInt64, if_pos hholds, Int32.toInt32_toInt64] at h

end DataType

/-! ### Casts -/

namespace CastRegistry

/-- The value of the type `t` casts to the text `s`, and the text casts back to the value. -/
def RoundTrips (r : CastRegistry) (t : DataType) (v : Value) (s : String) : Prop :=
  ∃ write read, r.function t .string = .ok write ∧ r.function .string t = .ok read ∧
    write v = .ok (.string s) ∧ read (.string s) = .ok v

theorem standard_roundTrips_int32 (n : Int32) :
    standard.RoundTrips .integer (.integer n) (toString n.toInt) := by
  refine ⟨_, _, rfl, rfl, rfl, ?_⟩
  show Except.ok (Value.integer (Cast.orElse 0 (readInt32 (toString n.toInt)))) = _
  rw [readInt32_toString, Cast.orElse]

theorem standard_roundTrips_int64 (n : Int64) :
    standard.RoundTrips .bigInteger (.bigInteger n) (toString n.toInt) := by
  refine ⟨_, _, rfl, rfl, rfl, ?_⟩
  show Except.ok (Value.bigInteger (Cast.orElse 0 (readInt64 (toString n.toInt)))) = _
  rw [readInt64_toString, Cast.orElse]

/-- **An integer casts to a text and back to itself, and its text converts to it** in the types of
integers that hold it. -/
theorem standard_roundTrips_integers :
    (∀ n : Int32, standard.RoundTrips .integer (.integer n) (toString n.toInt) ∧
      DataType.convert .bigInteger (.string (toString n.toInt)) = .ok (.bigInteger n.toInt64) ∧
      DataType.convert .timestamp (.string (toString n.toInt)) = .ok (.timestamp n.toInt64) ∧
      DataType.convert .integer (.string (toString n.toInt)) = .ok (.integer n)) ∧
    (∀ n : Int64, standard.RoundTrips .bigInteger (.bigInteger n) (toString n.toInt) ∧
      DataType.convert .bigInteger (.string (toString n.toInt)) = .ok (.bigInteger n) ∧
      DataType.convert .timestamp (.string (toString n.toInt)) = .ok (.timestamp n) ∧
      DataType.convert .integer (.string (toString n.toInt)) =
        if DataType.integer.HoldsInt n.toInt then .ok (.integer n.toInt32)
        else .error (.overflow (.string (toString n.toInt)) .integer)) :=
  ⟨fun n ↦ ⟨standard_roundTrips_int32 n, DataType.convert_toString_int32 n⟩,
    fun n ↦ ⟨standard_roundTrips_int64 n, DataType.convert_toString n⟩⟩

/-- **A floating-point number other than a NaN casts to a text and back to itself, bit by bit, and
its text converts to it.** -/
theorem standard_roundTrips_float (x : Binary64) (hx : x.isNaN = false) :
    standard.RoundTrips .float (.float x) x.generalText ∧
      DataType.convert .float (.string x.generalText) = .ok (.float x) := by
  have hread := Binary64.read?_generalText hx
  refine ⟨⟨_, _, rfl, rfl, rfl, ?_⟩, ?_⟩
  · show Except.ok (Value.float ((Binary64.read? x.generalText).getD (.zero false))) = _
    rw [hread, Option.getD_some]
  · simp only [DataType.convert, hread]

/-- The negative zero keeps its sign, and so does the least negative number. -/
theorem standard_roundTrips_float_negative :
    standard.RoundTrips .float (.float (.zero true)) "-0" ∧
    standard.RoundTrips .float (.float ⟨true, 1, by decide⟩) "-5e-324" := by
  have hzero : Binary64.generalText (.zero true) = "-0" := rfl
  have hleast : Binary64.generalText ⟨true, 1, by decide⟩ = "-5e-324" := by decide +kernel
  obtain ⟨h₀, -⟩ := standard_roundTrips_float (.zero true) (by decide)
  obtain ⟨h₁, -⟩ := standard_roundTrips_float ⟨true, 1, by decide⟩ (by decide)
  rw [hzero] at h₀
  rw [hleast] at h₁
  exact ⟨h₀, h₁⟩

end CastRegistry

end LogicalQuery
