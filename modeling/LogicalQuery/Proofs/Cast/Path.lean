import LogicalQuery.Cast.Standard
import LogicalQuery.Proofs.Binary64.Integer
import LogicalQuery.Proofs.Cast.Conversion

/-!
# Casts along paths of types

A value can be cast to a type directly, or through other types on the way (`CastRegistry.castAlong`).
With the standard casts the way makes no difference to an integer of 32 bits: it goes through the big
integers to any type as it goes there by itself, and it comes back from the big integers and from the
floating-point numbers. An integer of 64 bits comes back from the floating-point numbers within 53
bits. A floating-point number saturates at both widths, so that its cast to an integer of 32 bits is
its cast to one of 64 bits, limited to 32 bits (`standard_castAlong_numbers`).
-/

namespace LogicalQuery

/-- The outcome of casting a value of the type `source` to each type of a path in turn. -/
def CastRegistry.castAlong (r : CastRegistry) (source : DataType) :
    List DataType → Value → Except Error Value
  | [], v => .ok v
  | t :: path, v => do
    let f ← r.function source t
    r.castAlong t path (← f v)

/-! ### Integers of two widths -/

/-- A number is limited to 32 bits. -/
theorem toInt_ofIntClamp_int32 (i : Int) :
    (Int32.ofIntClamp i).toInt = max (-2 ^ 31) (min i (2 ^ 31 - 1)) := by
  have hmin : Int32.minValue.toInt = -2 ^ 31 := Int32.toInt_minValue
  have hmax : Int32.maxValue.toInt = 2 ^ 31 - 1 := Int32.toInt_maxValue
  rw [Int32.ofIntClamp]
  split
  next hlow =>
    split
    next hhigh =>
      rw [Int32.toInt_ofIntLE]
      omega
    next => omega
  next => omega

/-- A number is limited to 64 bits. -/
theorem toInt_ofIntClamp_int64 (i : Int) :
    (Int64.ofIntClamp i).toInt = max (-2 ^ 63) (min i (2 ^ 63 - 1)) := by
  have hmin : Int64.minValue.toInt = -2 ^ 63 := Int64.toInt_minValue
  have hmax : Int64.maxValue.toInt = 2 ^ 63 - 1 := Int64.toInt_maxValue
  rw [Int64.ofIntClamp]
  split
  next hlow =>
    split
    next hhigh =>
      rw [Int64.toInt_ofIntLE]
      omega
    next => omega
  next => omega

/-- A number within 32 bits is not changed. -/
theorem ofIntClamp_toInt (n : Int32) : Int32.ofIntClamp n.toInt = n := by
  have hlow := n.le_toInt
  have hhigh := n.toInt_lt
  rw [← Int32.toInt_inj, toInt_ofIntClamp_int32]
  omega

/-- A number within 64 bits is not changed. -/
theorem ofIntClamp_eq {i : Int} {n : Int64} (h : n.toInt = i) : Int64.ofIntClamp i = n := by
  have hlow := n.le_toInt
  have hhigh := n.toInt_lt
  rw [← Int64.toInt_inj, toInt_ofIntClamp_int64]
  omega

theorem toInt64_bne_zero (n : Int32) : (n.toInt64 != 0) = (n != 0) := by
  have h : n.toInt64 = 0 ↔ n = 0 := by
    rw [← Int64.toInt_inj, ← Int32.toInt_inj, Int32.toInt_toInt64]
    rfl
  rw [Bool.eq_iff_iff, bne_iff_ne, bne_iff_ne, ne_eq, ne_eq, h]

namespace CastRegistry

/-! ### From the integers of 32 bits -/

/-- Every integer of 32 bits is a number of seconds at which there is an instant. -/
theorem exists_castAlong_timestampTz (n : Int32) :
    ∃ t : Instant,
      standard.castAlong .integer [.timestampTz] (.integer n) = .ok (.timestampTz t) ∧
      standard.castAlong .integer [.bigInteger, .timestampTz] (.integer n) =
        .ok (.timestampTz t) := by
  have hlow := n.le_toInt
  have hhigh := n.toInt_lt
  cases h : DataType.instantOf (.integer n) n.toInt with
  | error e =>
    obtain ⟨-, hrange⟩ := DataType.instantOf_eq_error_iff.1 h
    omega
  | ok w =>
    obtain ⟨t, hseconds, hnanos, rfl⟩ := DataType.instantOf_eq_ok_iff.1 h
    refine ⟨t, congrArg (· >>= Except.ok) h, ?_⟩
    have hbig : DataType.instantOf (.bigInteger n.toInt64) n.toInt64.toInt =
        .ok (.timestampTz t) :=
      DataType.instantOf_eq_ok_iff.2 ⟨t, by rw [hseconds, Int32.toInt_toInt64], hnanos, rfl⟩
    exact congrArg (· >>= Except.ok) hbig

/-- An integer of 32 bits goes through the big integers as it goes by itself. -/
theorem exists_castAlong_bigInteger (n : Int32) {t : DataType}
    (ht : t ∈ [DataType.float, .string, .boolean, .timestampTz]) :
    ∃ w, t.check w = true ∧ standard.castAlong .integer [t] (.integer n) = .ok w ∧
      standard.castAlong .integer [.bigInteger, t] (.integer n) = .ok w := by
  have htoInt : n.toInt64.toInt = n.toInt := Int32.toInt_toInt64 n
  simp only [List.mem_cons, List.not_mem_nil, or_false] at ht
  rcases ht with rfl | rfl | rfl | rfl
  · refine ⟨.float (.ofInt n.toInt), rfl, rfl, ?_⟩
    rw [← htoInt]
    rfl
  · refine ⟨.string (toString n.toInt), rfl, rfl, ?_⟩
    rw [← htoInt]
    rfl
  · refine ⟨.boolean (n != 0), rfl, rfl, ?_⟩
    rw [← toInt64_bne_zero]
    rfl
  · obtain ⟨t, hdirect, hthrough⟩ := exists_castAlong_timestampTz n
    exact ⟨_, rfl, hdirect, hthrough⟩

theorem castAlong_bigInteger_integer (n : Int32) :
    standard.castAlong .integer [.bigInteger, .integer] (.integer n) = .ok (.integer n) := by
  show Except.ok (Value.integer n.toInt64.toInt32) = _
  rw [Int32.toInt32_toInt64]

/-- Truncation gives an integer of 32 bits back at both widths. -/
theorem castAlong_float_integer (n : Int32) :
    standard.castAlong .integer [.float, .integer] (.integer n) = .ok (.integer n) ∧
      standard.castAlong .integer [.float, .bigInteger] (.integer n) =
        .ok (.bigInteger n.toInt64) := by
  have htruncate : (Binary64.ofInt n.toInt).truncate = n.toInt :=
    Binary64.truncate_ofInt (Binary64.natAbs_toInt_le n)
  constructor
  · show Except.ok (Value.integer (.ofIntClamp (Binary64.ofInt n.toInt).truncate)) = _
    rw [htruncate, ofIntClamp_toInt]
  · show Except.ok (Value.bigInteger (.ofIntClamp (Binary64.ofInt n.toInt).truncate)) = _
    rw [htruncate, ofIntClamp_eq (Int32.toInt_toInt64 n)]

/-! ### All numbers -/

/-- **Casts among numbers commute.** An integer of 32 bits is cast to a type with the same result
directly and through the big integers, and it comes back from the big integers and from the
floating-point numbers, at either width. A floating-point number, finite or not, is cast to 32 bits
as to 64 bits, limited to the integers of 32 bits. An integer of 64 bits comes back from the
floating-point numbers if its absolute value is at most `2 ^ 53`. -/
theorem standard_castAlong_numbers :
    (∀ n : Int32,
      (∀ t ∈ [DataType.float, .string, .boolean, .timestampTz], ∃ w, t.check w = true ∧
        standard.castAlong .integer [t] (.integer n) = .ok w ∧
        standard.castAlong .integer [.bigInteger, t] (.integer n) = .ok w) ∧
      standard.castAlong .integer [.bigInteger, .integer] (.integer n) = .ok (.integer n) ∧
      standard.castAlong .integer [.float, .integer] (.integer n) = .ok (.integer n) ∧
      standard.castAlong .integer [.bigInteger] (.integer n) = .ok (.bigInteger n.toInt64) ∧
      standard.castAlong .integer [.float, .bigInteger] (.integer n) =
        .ok (.bigInteger n.toInt64)) ∧
    (∀ x : Binary64, ∃ (m : Int32) (n : Int64),
      standard.castAlong .float [.integer] (.float x) = .ok (.integer m) ∧
      standard.castAlong .float [.bigInteger] (.float x) = .ok (.bigInteger n) ∧
      m.toInt = max (-2 ^ 31) (min n.toInt (2 ^ 31 - 1))) ∧
    ∀ n : Int64, n.toInt.natAbs ≤ 2 ^ 53 →
      standard.castAlong .bigInteger [.float, .bigInteger] (.bigInteger n) =
        .ok (.bigInteger n) := by
  refine ⟨fun n ↦ ?_, fun x ↦ ?_, fun n hn ↦ ?_⟩
  · obtain ⟨hinteger, hbigInteger⟩ := castAlong_float_integer n
    exact ⟨fun t ht ↦ exists_castAlong_bigInteger n ht, castAlong_bigInteger_integer n, hinteger,
      rfl, hbigInteger⟩
  · refine ⟨.ofIntClamp x.truncate, .ofIntClamp x.truncate, rfl, rfl, ?_⟩
    rw [toInt_ofIntClamp_int32, toInt_ofIntClamp_int64]
    omega
  · show Except.ok (Value.bigInteger (.ofIntClamp (Binary64.ofInt n.toInt).truncate)) = _
    rw [Binary64.truncate_ofInt hn, ofIntClamp_eq rfl]

/-- The least integer of 32 bits has the same text by both ways, and the least integer of 64 bits
that is known to come back does so. -/
theorem standard_castAlong_numbers_least :
    standard.castAlong .integer [.bigInteger, .string] (.integer Int32.minValue) =
      .ok (.string "-2147483648") ∧
    standard.castAlong .bigInteger [.float, .bigInteger] (.bigInteger (-9007199254740992)) =
      .ok (.bigInteger (-9007199254740992)) := by
  obtain ⟨hintegers, -, hbigIntegers⟩ := standard_castAlong_numbers
  obtain ⟨hthrough, -⟩ := hintegers Int32.minValue
  obtain ⟨w, -, hdirect, hw⟩ := hthrough .string (by decide)
  obtain rfl := Except.ok.inj (hdirect.symm.trans rfl)
  exact ⟨hw, hbigIntegers _ (by decide)⟩

end CastRegistry

end LogicalQuery
