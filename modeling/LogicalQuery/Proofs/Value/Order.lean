import LogicalQuery.Value.Comparison
import Mathlib.Order.Compare

/-!
# The order of a type

The values of a type are compared by their contents, and the contents of every type have a total
order in which only equal contents are equivalent (`DataType.contents`, with one case for each type).
So `compare` is a total order on the values of the type, it agrees with equality of values, and it
refuses all other values (`DataType.compare_totalOrder`).
-/

namespace LogicalQuery

/-! ### Orders of contents -/

/-- Numbers are compared by their places in the total order of bit patterns. -/
instance Binary64.transCmp_compareTotal : Std.TransCmp Binary64.compareTotal :=
  inferInstanceAs (Std.TransCmp (compareOn Binary64.rank))

instance Binary64.lawfulEqCmp_compareTotal : Std.LawfulEqCmp Binary64.compareTotal where
  compare_self := compareTotal_eq_eq_iff.2 rfl
  eq_of_compare := compareTotal_eq_eq_iff.1

theorem Binary64.bits_inj {x y : Binary64} : x.bits = y.bits ↔ x = y :=
  ⟨fun h ↦ by rw [← ofBits_bits x, h, ofBits_bits], congrArg bits⟩

/-- Instants are compared by their seconds, and then by their nanoseconds. -/
instance Instant.transCmp_compare : Std.TransCmp Instant.compare :=
  inferInstanceAs (Std.TransCmp (compareLex (compareOn seconds) (compareOn nanos)))

instance Instant.lawfulEqCmp_compare : Std.LawfulEqCmp Instant.compare where
  compare_self := compare_eq_eq_iff.2 rfl
  eq_of_compare := compare_eq_eq_iff.1

instance lawfulEqCmp_compareOn_int32 : Std.LawfulEqCmp (compareOn Int32.toInt) where
  compare_self := Int.compare_eq_eq.2 rfl
  eq_of_compare h := Int32.toInt_inj.1 (Int.compare_eq_eq.1 h)

instance lawfulEqCmp_compareOn_int64 : Std.LawfulEqCmp (compareOn Int64.toInt) where
  compare_self := Int.compare_eq_eq.2 rfl
  eq_of_compare h := Int64.toInt_inj.1 (Int.compare_eq_eq.1 h)

/-! ### Contents -/

theorem ComparisonOp.holds_le (o : Ordering) : le.holds o = o.isLE := by
  cases o <;> rfl

namespace DataType

/-- Contents in a total order, by which the values of the type are compared. -/
structure Contents (t : DataType) where
  /-- The contents of values. -/
  Content : Type
  /-- The order of contents. -/
  cmp : Content → Content → Ordering
  /-- The value with the given content. -/
  value : Content → Value
  [transCmp : Std.TransCmp cmp]
  [lawfulEqCmp : Std.LawfulEqCmp cmp]
  value_injective : Function.Injective value
  exists_value : ∀ v, v.dataType? = some t → ∃ c, value c = v
  compare_value : ∀ c d, t.compare (value c) (value d) = .ok (cmp c d)

attribute [instance] Contents.transCmp Contents.lawfulEqCmp

/-- The contents of the values of each type. -/
def contents : (t : DataType) → t.Contents
  | integer =>
    { Content := Int32
      cmp := compareOn Int32.toInt
      value := .integer
      value_injective _ _ := Value.integer.inj
      exists_value v hv := by cases v <;> cases hv; exact ⟨_, rfl⟩
      compare_value _ _ := rfl }
  | bigInteger =>
    { Content := Int64
      cmp := compareOn Int64.toInt
      value := .bigInteger
      value_injective _ _ := Value.bigInteger.inj
      exists_value v hv := by cases v <;> cases hv; exact ⟨_, rfl⟩
      compare_value _ _ := rfl }
  | float =>
    { Content := Binary64
      cmp := Binary64.compareTotal
      value := .float
      value_injective _ _ := Value.float.inj
      exists_value v hv := by cases v <;> cases hv; exact ⟨_, rfl⟩
      compare_value _ _ := rfl }
  | string =>
    { Content := String
      cmp := Ord.compare
      value := .string
      value_injective _ _ := Value.string.inj
      exists_value v hv := by cases v <;> cases hv; exact ⟨_, rfl⟩
      compare_value _ _ := rfl }
  | boolean =>
    { Content := Bool
      cmp := Ord.compare
      value := .boolean
      value_injective _ _ := Value.boolean.inj
      exists_value v hv := by cases v <;> cases hv; exact ⟨_, rfl⟩
      compare_value _ _ := rfl }
  | timestamp =>
    { Content := Int64
      cmp := compareOn Int64.toInt
      value := .timestamp
      value_injective _ _ := Value.timestamp.inj
      exists_value v hv := by cases v <;> cases hv; exact ⟨_, rfl⟩
      compare_value _ _ := rfl }
  | timestampTz =>
    { Content := Instant
      cmp := Instant.compare
      value := .timestampTz
      value_injective _ _ := Value.timestampTz.inj
      exists_value v hv := by cases v <;> cases hv; exact ⟨_, rfl⟩
      compare_value _ _ := rfl }

variable {t : DataType} {a b c : Value} {o : Ordering}

/-- Values that do not both belong to the type are not compared, and the first that does not is to
blame. -/
theorem compare_eq_error (h : ¬ (t.check a = true ∧ t.check b = true)) :
    t.compare a b = .error (.typeMismatch t (if t.check a then b else a).dataType?) := by
  unfold compare
  split
  case h_8 => rfl
  all_goals exact absurd ⟨rfl, rfl⟩ h

/-- What holds of all contents of a type holds of all its values. -/
theorem forall_of_check {P : Value → Prop} (h : ∀ c, P (t.contents.value c)) (v : Value)
    (hv : t.check v = true) : P v := by
  obtain ⟨c, rfl⟩ := t.contents.exists_value v (check_iff.1 hv)
  exact h c

theorem exists_contents_of_check (ha : t.check a = true) (hb : t.check b = true) :
    ∃ c d, t.contents.value c = a ∧ t.contents.value d = b ∧
      t.compare a b = .ok (t.contents.cmp c d) := by
  obtain ⟨c, rfl⟩ := t.contents.exists_value a (check_iff.1 ha)
  obtain ⟨d, rfl⟩ := t.contents.exists_value b (check_iff.1 hb)
  exact ⟨c, d, rfl, rfl, t.contents.compare_value c d⟩

/-- Two values that are compared have contents that compare so. -/
theorem exists_contents_of_compare (h : t.compare a b = .ok o) :
    ∃ c d, t.contents.value c = a ∧ t.contents.value d = b ∧ t.contents.cmp c d = o := by
  by_cases hcheck : t.check a = true ∧ t.check b = true
  · obtain ⟨c, d, hc, hd, hcmp⟩ := exists_contents_of_check hcheck.1 hcheck.2
    exact ⟨c, d, hc, hd, Except.ok.inj (hcmp.symm.trans h)⟩
  · exact nomatch (compare_eq_error hcheck).symm.trans h

/-- A comparison fails only on a value of another type. -/
theorem exists_mismatch_of_compare {e : Error} (h : t.compare a b = .error e) :
    ∃ actual, e = .typeMismatch t actual := by
  by_cases hcheck : t.check a = true ∧ t.check b = true
  · obtain ⟨c, d, -, -, hcmp⟩ := exists_contents_of_check hcheck.1 hcheck.2
    exact nomatch hcmp.symm.trans h
  · exact ⟨_, Except.error.inj (h.symm.trans (compare_eq_error hcheck))⟩

/-! ### Laws of the order -/

/-- In the other direction, values compare the other way round. -/
theorem compare_swap (h : t.compare a b = .ok o) : t.compare b a = .ok o.swap := by
  obtain ⟨c, d, rfl, rfl, rfl⟩ := exists_contents_of_compare h
  rw [t.contents.compare_value]
  exact congrArg Except.ok Std.OrientedCmp.eq_swap

/-- Only equal values are equivalent. -/
theorem eq_iff_of_compare (h : t.compare a b = .ok o) : o = .eq ↔ a = b := by
  obtain ⟨c, d, rfl, rfl, rfl⟩ := exists_contents_of_compare h
  rw [Std.LawfulEqCmp.compare_eq_iff_eq, t.contents.value_injective.eq_iff]

/-- The first value is at most the second one, as the operator has it. -/
def Le (t : DataType) (a b : Value) : Prop :=
  ∃ o, t.compare a b = .ok o ∧ ComparisonOp.le.holds o = true

theorem Le.trans (hab : t.Le a b) (hbc : t.Le b c) : t.Le a c := by
  obtain ⟨o, ho, hle⟩ := hab
  obtain ⟨o', ho', hle'⟩ := hbc
  obtain ⟨c, d, rfl, rfl, rfl⟩ := exists_contents_of_compare ho
  obtain ⟨d', e, hd, rfl, rfl⟩ := exists_contents_of_compare ho'
  obtain rfl := t.contents.value_injective hd
  rw [ComparisonOp.holds_le] at hle hle'
  refine ⟨_, t.contents.compare_value c e, ?_⟩
  rw [ComparisonOp.holds_le]
  exact Std.TransCmp.isLE_trans hle hle'

/-- **`compare` is a total order on the values of a type.** It orders any two of them, with the
opposite outcome for the opposite direction, it calls values equivalent exactly if they are equal,
where floating-point numbers are equal if their bits are, and it is transitive. Of two values that do
not both belong to the type, it refuses the second one, if the first one belongs to the type, and
otherwise the first one. -/
theorem compare_totalOrder (t : DataType) :
    (∀ a b, t.check a = true → t.check b = true →
      ∃ o, t.compare a b = .ok o ∧ t.compare b a = .ok o.swap ∧ (o = .eq ↔ (a == b) = true)) ∧
    (∀ x y : Binary64, (Value.float x == Value.float y) = true ↔ x.bits = y.bits) ∧
    (∀ a b c, t.Le a b → t.Le b c → t.Le a c) ∧
    (∀ a b, t.check a = true → t.check b = false →
      t.compare a b = .error (.typeMismatch t b.dataType?)) ∧
    ∀ a b, t.check a = false → t.compare a b = .error (.typeMismatch t a.dataType?) := by
  refine ⟨fun a b ha hb ↦ ?_, fun x y ↦ ?_, fun _ _ _ ↦ Le.trans, fun a b ha hb ↦ ?_,
    fun a b ha ↦ ?_⟩
  · obtain ⟨c, d, -, -, h⟩ := exists_contents_of_check ha hb
    exact ⟨_, h, compare_swap h, by rw [eq_iff_of_compare h, beq_iff_eq]⟩
  · rw [beq_iff_eq, Value.float.injEq, Binary64.bits_inj]
  · rw [compare_eq_error fun h ↦ Bool.false_ne_true (hb.symm.trans h.2), if_pos ha]
  · rw [compare_eq_error fun h ↦ Bool.false_ne_true (ha.symm.trans h.1), ha,
      if_neg Bool.false_ne_true]

/-- The negative zero is below the positive one and above the negative NaN, and no number is compared
with null. -/
theorem compare_totalOrder_zeros :
    let nan : Value := .float (.nan true)
    let minus : Value := .float (.zero true)
    let plus : Value := .float (.zero false)
    (float.check minus = true ∧ float.check plus = true ∧ float.check .null = false ∧
      float.Le nan minus ∧ float.Le minus plus) ∧
      (∃ o, float.compare minus plus = .ok o ∧ float.compare plus minus = .ok o.swap ∧
        (o = .eq ↔ (minus == plus) = true)) ∧
      float.Le nan plus ∧ float.compare minus .null = .error (.typeMismatch .float none) ∧
      float.compare .null minus = .error (.typeMismatch .float none) := by
  intro nan minus plus
  obtain ⟨htotal, -, htrans, hsecond, hfirst⟩ := compare_totalOrder float
  have hnan : float.Le nan minus := ⟨.lt, rfl, rfl⟩
  have hzeros : float.Le minus plus := ⟨.lt, rfl, rfl⟩
  exact ⟨⟨rfl, rfl, rfl, hnan, hzeros⟩, htotal minus plus rfl rfl, htrans _ _ _ hnan hzeros,
    hsecond minus .null rfl rfl, hfirst .null minus rfl⟩

end DataType

end LogicalQuery
