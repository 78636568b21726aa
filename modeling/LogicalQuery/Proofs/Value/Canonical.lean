import LogicalQuery.Proofs.Cast.Standard
import LogicalQuery.Proofs.Value.Integer

/-!
# Conversion gives canonical values

What a value other than null converts to belongs to the type, and a conversion fails in one of two
ways: the value is invalid for the type, or it overflows the type (`converted_convert`). A value
that belongs to the type is left as it is, so that a second conversion changes nothing
(`convert_of_check`). Among the types that hold integers, conversion keeps the integer, and refuses
it exactly if it does not fit. `convert_canonical` has all of this.
-/

namespace LogicalQuery.DataType

variable {t : DataType} {v w : Value} {e : Error}

/-! ### Values of the type -/

theorem convert_null (t : DataType) : t.convert .null = .ok .null := by
  cases t <;> rfl

/-- An integer of 32 bits is taken to 64 bits, and narrowed again. -/
theorem convert_integer_integer (n : Int32) : convert .integer (.integer n) = .ok (.integer n) := by
  have hnarrow : narrow? n.toInt64 = some n := narrow?_eq_some_iff.2 (Int32.toInt_toInt64 n)
  rw [convert_integer_eq (by simp), integerOf, ok_bind, hnarrow]

/-- **A value of the type converts to itself.** -/
theorem convert_of_check (h : t.check v = true) : t.convert v = .ok v := by
  refine forall_of_check (P := fun v ↦ t.convert v = .ok v) (fun c ↦ ?_) v h
  cases t with
  | integer => exact convert_integer_integer c
  | _ => rfl

/-! ### Outcomes -/

/-- The outcomes of converting the value `v` to the type `t`. -/
inductive Converted (t : DataType) (v : Value) : Except Error Value → Prop
  | null (hv : v = .null) : Converted t v (.ok .null)
  | value {w : Value} (hv : v ≠ .null) (hw : t.check w = true) : Converted t v (.ok w)
  | invalid : Converted t v (.error (.invalidType v t))
  | overflows : Converted t v (.error (.overflow v t))

theorem integerOf_eq_error (h : integerOf t v = .error e) :
    e = .invalidType v t ∨ e = .overflow v t := by
  cases v with
  | integer _ | bigInteger _ | timestamp _ => cases h
  | float _ | boolean _ | timestampTz _ | null => exact .inl (Except.error.inj h).symm
  | string s =>
    rw [integerOf] at h
    split at h
    next => cases h
    next => exact .inr (Except.error.inj h).symm
    next => exact .inl (Except.error.inj h).symm

/-- A conversion to a type of integers narrows the integer of the value. -/
theorem converted_integral (ht : t ∈ integral) (hv : v ≠ .null) : Converted t v (t.convert v) := by
  cases h : integerOf t v with
  | ok n =>
    have hnarrowed := narrowed_convert ht h
    generalize t.convert v = outcome at hnarrowed
    cases hnarrowed with
    | fits _ hw _ => exact .value hv hw
    | overflows _ => exact .overflows
  | error e =>
    rw [convert_eq_error_of_integerOf ht hv h]
    rcases integerOf_eq_error h with rfl | rfl
    · exact .invalid
    · exact .overflows

theorem converted_instantOf (hv : v ≠ .null) (seconds : Int) :
    Converted .timestampTz v (instantOf v seconds) := by
  rcases isCastOf_instantOf v seconds with ⟨w, hw, hcheck⟩ | ⟨-, herr⟩
  · exact hw ▸ .value hv hcheck
  · exact herr ▸ .overflows

/-- **Every conversion gives null, a value of the type, or one of two errors.** -/
theorem converted_convert (t : DataType) (v : Value) : Converted t v (t.convert v) := by
  by_cases hv : v = .null
  · rw [hv, convert_null]
    exact .null rfl
  cases t with
  | integer | bigInteger | timestamp => exact converted_integral (by decide) hv
  | float =>
    cases v with
    | integer _ | bigInteger _ | timestamp _ | float _ => exact .value hv rfl
    | boolean _ | timestampTz _ => exact .invalid
    | null => exact absurd rfl hv
    | string s =>
      rw [convert]
      split
      next => exact .value hv rfl
      next => exact .invalid
  | string =>
    cases v with
    | string _ | timestampTz _ => exact .value hv rfl
    | integer _ | bigInteger _ | float _ | boolean _ | timestamp _ => exact .invalid
    | null => exact absurd rfl hv
  | boolean =>
    cases v with
    | boolean _ => exact .value hv rfl
    | integer _ | bigInteger _ | float _ | string _ | timestamp _ | timestampTz _ => exact .invalid
    | null => exact absurd rfl hv
  | timestampTz =>
    cases v with
    | timestampTz _ => exact .value hv rfl
    | integer n => exact converted_instantOf hv n.toInt
    | bigInteger n => exact converted_instantOf hv n.toInt
    | float _ | boolean _ | timestamp _ => exact .invalid
    | null => exact absurd rfl hv
    | string s =>
      rw [convert]
      split
      next => exact .value hv rfl
      next => exact .invalid

/-- A conversion that succeeds gives null for null alone, and a value of the type otherwise. -/
theorem null_or_check_of_convert (h : t.convert v = .ok w) :
    (w = .null ∧ v = .null) ∨ (t.check w = true ∧ v ≠ .null) := by
  have hconverted := converted_convert t v
  rw [h] at hconverted
  cases hconverted with
  | null hv => exact .inl ⟨rfl, hv⟩
  | value hv hw => exact .inr ⟨hw, hv⟩

theorem eq_of_convert_eq_error (h : t.convert v = .error e) :
    e = .invalidType v t ∨ e = .overflow v t := by
  have hconverted := converted_convert t v
  rw [h] at hconverted
  cases hconverted with
  | invalid => exact .inl rfl
  | overflows => exact .inr rfl

theorem ne_null_of_check (h : t.check w = true) : w ≠ .null := by
  rintro rfl
  exact nomatch check_iff.1 h

/-! ### Integers -/

/-- A value that holds an integer stands for it. -/
theorem exists_integerOf {n : Int} (h : v.toInt? = some n) :
    ∃ m : Int64, integerOf t v = .ok m ∧ m.toInt = n := by
  cases v with
  | integer m => exact ⟨m.toInt64, rfl, (Int32.toInt_toInt64 m).trans (Option.some.inj h)⟩
  | bigInteger m | timestamp m => exact ⟨m, rfl, Option.some.inj h⟩
  | float _ | string _ | boolean _ | timestampTz _ | null => exact nomatch h

/-- **Conversion takes a value to the canonical value of the type.** If it succeeds, then null
converts to null alone, any other value to a value of the type, and a second conversion changes
nothing. A value of the type stays as it is, and a floating-point number with all its bits. Between
the types that hold integers, conversion keeps the integer, and fails exactly if the integer does
not fit the type, which is an overflow. Every other failure says that the value is invalid, or
overflows the type. -/
theorem convert_canonical (t : DataType) (v : Value) :
    (∀ w, t.convert v = .ok w →
      (w = .null ↔ v = .null) ∧ (w ≠ .null → t.check w = true) ∧ t.convert w = .ok w) ∧
    (t.check v = true → t.convert v = .ok v) ∧
    (∀ x : Binary64, ∃ y, float.convert (.float x) = .ok (.float y) ∧ y.bits = x.bits) ∧
    (∀ n, t ∈ integral → v.toInt? = some n →
      (∀ w, t.convert v = .ok w → w.toInt? = some n) ∧
      ∀ e, t.convert v = .error e ↔ ¬t.HoldsInt n ∧ e = .overflow v t) ∧
    ∀ e, t.convert v = .error e → e = .invalidType v t ∨ e = .overflow v t := by
  refine ⟨fun w hw ↦ ?_, convert_of_check, fun x ↦ ⟨x, rfl, rfl⟩, fun n ht hn ↦ ?_,
    fun e ↦ eq_of_convert_eq_error⟩
  · rcases null_or_check_of_convert hw with ⟨rfl, hv⟩ | ⟨hcheck, hv⟩
    · exact ⟨iff_of_true rfl hv, fun h ↦ absurd rfl h, convert_null t⟩
    · exact ⟨iff_of_false (ne_null_of_check hcheck) hv, fun _ ↦ hcheck, convert_of_check hcheck⟩
  · obtain ⟨m, hm, rfl⟩ := exists_integerOf hn
    exact (narrowed_convert ht hm).cases_iff

/-- A text in another offset becomes an instant, once and for all, and the first number beyond 32
bits overflows. -/
theorem convert_canonical_edges :
    (∃ w, timestampTz.convert (.string "1970-01-01T01:00:00+01:00") = .ok w ∧
      timestampTz.check w = true ∧ timestampTz.convert w = .ok w) ∧
    integer.convert (.timestamp 2147483648) =
      .error (.overflow (.timestamp 2147483648) .integer) ∧
    ∀ w, timestamp.convert (.integer (-5)) = .ok w → w.toInt? = some (-5) := by
  obtain ⟨hinstant, -⟩ := convert_canonical timestampTz (.string "1970-01-01T01:00:00+01:00")
  obtain ⟨-, -, -, hbeyond, -⟩ := convert_canonical integer (.timestamp 2147483648)
  obtain ⟨-, -, -, hminus, -⟩ := convert_canonical timestamp (.integer (-5))
  have hw : timestampTz.convert (.string "1970-01-01T01:00:00+01:00") =
      .ok (.timestampTz ⟨0, 0, by decide, by decide, by decide⟩) := by decide +kernel
  obtain ⟨-, hcheck, hagain⟩ := hinstant _ hw
  exact ⟨⟨_, hw, hcheck (by simp), hagain⟩,
    ((hbeyond 2147483648 (by decide) rfl).2 _).2 ⟨by decide, rfl⟩, (hminus (-5) (by decide) rfl).1⟩

end LogicalQuery.DataType
