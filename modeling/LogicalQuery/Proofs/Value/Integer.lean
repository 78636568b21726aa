import LogicalQuery.Proofs.Text.Numeral
import LogicalQuery.Value.Conversion
import Mathlib.Algebra.Ring.Int.Defs

/-!
# Integers as values

The values of three types hold integers, of 32 or of 64 bits. A value that stands for an integer, by
its content or as a numeral, is taken to such a type by its number: it becomes the value of the type
that holds the number, or overflows where the number does not fit (`Narrowed`).

A text stands for an integer if it is a numeral. Every other text is refused as invalid, except that
a text which starts with a numeral of a number beyond 64 bits counts as an overflow, whatever comes
after the numeral (`DataType.convert_string_cases`).
-/

namespace LogicalQuery

open LogicalQuery.Text

/-- The integer that a value holds. -/
def Value.toInt? : Value → Option Int
  | .integer n => some n.toInt
  | .bigInteger n | .timestamp n => some n.toInt
  | _ => none

namespace DataType

/-- The types whose values hold integers. -/
def integral : List DataType := [integer, bigInteger, timestamp]

/-- The integer fits the type: it has at most as many bits as the values of the type. -/
def HoldsInt (t : DataType) (n : Int) : Prop :=
  match t.representation with
  | .int32 => -2 ^ 31 ≤ n ∧ n < 2 ^ 31
  | .int64 => -2 ^ 63 ≤ n ∧ n < 2 ^ 63
  | _ => False

instance (t : DataType) (n : Int) : Decidable (t.HoldsInt n) := by
  unfold HoldsInt
  split <;> infer_instance

end DataType

/-- The outcome of taking a value `v`, which stands for the integer `n`, to a type of integers. -/
inductive Narrowed (t : DataType) (v : Value) (n : Int) : Except Error Value → Prop
  /-- An integer that fits the type becomes the value of the type that holds it. -/
  | fits {w : Value} (hn : t.HoldsInt n) (hw : t.check w = true) (hint : w.toInt? = some n) :
    Narrowed t v n (.ok w)
  /-- An integer that does not fit the type overflows it. -/
  | overflows (hn : ¬t.HoldsInt n) : Narrowed t v n (.error (.overflow v t))

/-- Narrowing gives a value that holds the integer, or overflows, exactly if the integer does not
fit. -/
theorem Narrowed.cases_iff {t : DataType} {v : Value} {n : Int}
    {outcome : Except Error Value} (h : Narrowed t v n outcome) :
    (∀ w, outcome = .ok w → w.toInt? = some n) ∧
      ∀ e, outcome = .error e ↔ ¬t.HoldsInt n ∧ e = .overflow v t := by
  cases h with
  | fits hn _ hint =>
    refine ⟨fun w hw ↦ Except.ok.inj hw ▸ hint, fun e ↦ ?_⟩
    exact iff_of_false (fun h ↦ nomatch h) fun h ↦ h.1 hn
  | overflows hn =>
    refine ⟨fun w hw ↦ (nomatch hw), fun e ↦ ?_⟩
    rw [Except.error.injEq, and_iff_right hn, eq_comm]

namespace DataType

variable {t : DataType} {v : Value} {s : String}

/-! ### Narrowing -/

/-- Narrowing keeps the number. -/
theorem narrow?_eq_some_iff {n : Int64} {m : Int32} : narrow? n = some m ↔ n.toInt = m.toInt := by
  have hmin : Int32.minValue.toInt = -2 ^ 31 := Int32.toInt_minValue
  have hmax : Int32.maxValue.toInt = 2 ^ 31 - 1 := Int32.toInt_maxValue
  have hlow := m.le_toInt
  have hhigh := m.toInt_lt
  rw [narrow?]
  split
  next h =>
    have hnarrow : n.toInt32.toInt = n.toInt := by
      rw [Int64.toInt_toInt32]
      exact Int.bmod_eq_of_le (by omega) (by omega)
    rw [Option.some.injEq, ← hnarrow, Int32.toInt_inj]
  next h =>
    constructor
    · exact fun hnone ↦ nomatch hnone
    · exact fun heq ↦ absurd ⟨by omega, by omega⟩ h

theorem narrow?_eq_none_iff {n : Int64} : narrow? n = none ↔ ¬integer.HoldsInt n.toInt := by
  have hmin : Int32.minValue.toInt = -2 ^ 31 := Int32.toInt_minValue
  have hmax : Int32.maxValue.toInt = 2 ^ 31 - 1 := Int32.toInt_maxValue
  rw [narrow?, HoldsInt, representation, hmin, hmax]
  split <;> simp <;> omega

theorem toInt32_eq_of_narrow? {n : Int64} {m : Int32} (h : narrow? n = some m) :
    n.toInt32 = m := by
  rw [narrow?] at h
  split at h
  next => exact Option.some.inj h
  next => exact nomatch h

theorem holdsInt_int64 (ht : t.representation = .int64) (n : Int64) : t.HoldsInt n.toInt := by
  rw [HoldsInt, ht]
  exact ⟨n.le_toInt, n.toInt_lt⟩

theorem convert_integer_eq (hv : v ≠ .null) :
    convert .integer v = integerOf .integer v >>= fun n ↦
      match narrow? n with
      | some m => .ok (.integer m)
      | none => .error (.overflow v .integer) := by
  cases v with
  | null => exact absurd rfl hv
  | _ => rfl

theorem convert_bigInteger_eq (hv : v ≠ .null) :
    convert .bigInteger v = (integerOf .bigInteger v).map .bigInteger := by
  cases v with
  | null => exact absurd rfl hv
  | _ => rfl

theorem convert_timestamp_eq (hv : v ≠ .null) :
    convert .timestamp v = (integerOf .timestamp v).map .timestamp := by
  cases v with
  | null => exact absurd rfl hv
  | _ => rfl

/-- **A value that stands for an integer is taken to a type of integers by its number.** -/
theorem narrowed_convert (ht : t ∈ integral) {n : Int64} (h : integerOf t v = .ok n) :
    Narrowed t v n.toInt (t.convert v) := by
  have hv : v ≠ .null := by
    rintro rfl
    exact nomatch h
  simp only [integral, List.mem_cons, List.not_mem_nil, or_false] at ht
  rcases ht with rfl | rfl | rfl
  · rw [convert_integer_eq hv, h, ok_bind]
    cases hm : narrow? n with
    | some m =>
      have hint := narrow?_eq_some_iff.1 hm
      refine .fits ?_ rfl (congrArg some hint.symm)
      rw [hint]
      exact ⟨m.le_toInt, m.toInt_lt⟩
    | none => exact .overflows (narrow?_eq_none_iff.1 hm)
  · rw [convert_bigInteger_eq hv, h]
    exact .fits (holdsInt_int64 rfl n) rfl rfl
  · rw [convert_timestamp_eq hv, h]
    exact .fits (holdsInt_int64 rfl n) rfl rfl

/-- A value other than null that stands for no integer is refused, for the same reason. -/
theorem convert_eq_error_of_integerOf (ht : t ∈ integral) (hv : v ≠ .null) {e : Error}
    (h : integerOf t v = .error e) : t.convert v = .error e := by
  simp only [integral, List.mem_cons, List.not_mem_nil, or_false] at ht
  rcases ht with rfl | rfl | rfl
  · rw [convert_integer_eq hv, h, error_bind]
  · rw [convert_bigInteger_eq hv, h]
    rfl
  · rw [convert_timestamp_eq hv, h]
    rfl

/-! ### Texts -/

theorem holdsInt_bigInteger_iff {n : Int} :
    bigInteger.HoldsInt n ↔ Int64.minValue.toInt ≤ n ∧ n ≤ Int64.maxValue.toInt := by
  have hmin : Int64.minValue.toInt = -2 ^ 63 := Int64.toInt_minValue
  have hmax : Int64.maxValue.toInt = 2 ^ 63 - 1 := Int64.toInt_maxValue
  rw [HoldsInt, representation, hmin, hmax]
  omega

/-- What fits a type of integers has at most 64 bits. -/
theorem HoldsInt.bigInteger {n : Int} (h : t.HoldsInt n) : DataType.bigInteger.HoldsInt n := by
  rw [HoldsInt] at h
  split at h
  next => exact ⟨by omega, by omega⟩
  next => exact h
  next => exact h.elim

/-- A text is read as a number within 64 bits exactly if it is a numeral of the number. -/
theorem exists_readInt64_iff {n : Int} :
    (∃ m : Int64, readInt64 s = .ok m ∧ m.toInt = n) ↔
      IsNumeral s.toList n ∧ bigInteger.HoldsInt n := by
  simp only [readInt64_eq_ok_iff]
  constructor
  · rintro ⟨m, hm, rfl⟩
    exact ⟨hm, holdsInt_int64 rfl m⟩
  · rintro ⟨hn, hlow, hhigh⟩
    have hint : (Int64.ofInt n).toInt = n := Int64.toInt_ofInt_of_le hlow hhigh
    exact ⟨.ofInt n, by rwa [hint], hint⟩

theorem readInt64_eq_outOfRange_iff :
    readInt64 s = .error .outOfRange ↔
      ∃ p n, p <+: s.toList ∧ IsNumeral p n ∧ ¬bigInteger.HoldsInt n := by
  simp only [holdsInt_bigInteger_iff]
  rw [readInt64, map_eq_error_iff]
  exact readInt_eq_outOfRange_iff (by decide) (by decide)

/-- A text overflows a type of integers if it starts with a numeral of a number beyond 64 bits. -/
theorem convert_string_of_beyond (ht : t ∈ integral)
    (h : ∃ p n, p <+: s.toList ∧ IsNumeral p n ∧ ¬bigInteger.HoldsInt n) :
    t.convert (.string s) = .error (.overflow (.string s) t) := by
  refine convert_eq_error_of_integerOf ht (by simp) ?_
  rw [integerOf, readInt64_eq_outOfRange_iff.2 h]

theorem narrowed_convert_numeral (ht : t ∈ integral) {n : Int} (hn : IsNumeral s.toList n) :
    Narrowed t (.string s) n (t.convert (.string s)) := by
  by_cases hbig : bigInteger.HoldsInt n
  · obtain ⟨m, hm, rfl⟩ := exists_readInt64_iff.2 ⟨hn, hbig⟩
    exact narrowed_convert ht (by rw [integerOf, hm])
  · rw [convert_string_of_beyond ht ⟨s.toList, n, List.prefix_rfl, hn, hbig⟩]
    exact .overflows fun h ↦ hbig h.bigInteger

/-- **Numerals convert by their numbers, and other texts are refused.** A numeral converts to the
value of the type that holds its number, and overflows if the number does not fit. Every other text
is invalid, unless it starts with a numeral of a number beyond 64 bits: reading stops where the
number has left the range, so the text overflows, although it stands for no number. -/
theorem convert_string_cases (ht : t ∈ integral) (s : String) :
    (∀ n, IsNumeral s.toList n → Narrowed t (.string s) n (t.convert (.string s))) ∧
    ((∀ n, ¬IsNumeral s.toList n) →
      ((∃ p n, p <+: s.toList ∧ IsNumeral p n ∧ ¬bigInteger.HoldsInt n) →
        t.convert (.string s) = .error (.overflow (.string s) t)) ∧
      ((¬∃ p n, p <+: s.toList ∧ IsNumeral p n ∧ ¬bigInteger.HoldsInt n) →
        t.convert (.string s) = .error (.invalidType (.string s) t))) := by
  refine ⟨fun n hn ↦ narrowed_convert_numeral ht hn,
    fun hnone ↦ ⟨convert_string_of_beyond ht, fun hbegins ↦ ?_⟩⟩
  refine convert_eq_error_of_integerOf ht (by simp) ?_
  cases hread : readInt64 s with
  | ok m => exact absurd (readInt64_eq_ok_iff.1 hread) (hnone _)
  | error fault =>
    cases fault with
    | malformed => rw [integerOf, hread]
    | outOfRange => exact absurd (readInt64_eq_outOfRange_iff.1 hread) hbegins

/-- The least number of 64 bits has a numeral, and a letter makes a text invalid, unless the number
before it is already beyond 64 bits. -/
theorem convert_string_cases_edges :
    (∃ w, timestamp.convert (.string "-9223372036854775808") = .ok w ∧ w.toInt? = some (-2 ^ 63)) ∧
    integer.convert (.string "+2147483648") =
      .error (.overflow (.string "+2147483648") .integer) ∧
    integer.convert (.string "12x") = .error (.invalidType (.string "12x") .integer) ∧
    bigInteger.convert (.string "9223372036854775808x") =
      .error (.overflow (.string "9223372036854775808x") .bigInteger) := by
  obtain ⟨hleast, -⟩ := convert_string_cases (show timestamp ∈ integral by decide)
    "-9223372036854775808"
  obtain ⟨hgreat, -⟩ := convert_string_cases (show integer ∈ integral by decide) "+2147483648"
  obtain ⟨-, hletter⟩ := convert_string_cases (show integer ∈ integral by decide) "12x"
  obtain ⟨-, hbeyond⟩ := convert_string_cases (show bigInteger ∈ integral by decide)
    "9223372036854775808x"
  have hread : readInt64 "-9223372036854775808" = .ok Int64.minValue := rfl
  have hread' : readInt64 "+2147483648" = .ok 2147483648 := rfl
  refine ⟨?_, ?_, ?_, ?_⟩
  · cases hleast (-2 ^ 63) (readInt64_eq_ok_iff.1 hread) with
    | fits _ _ hint => exact ⟨_, rfl, hint⟩
  · cases hgreat (2 ^ 31) (readInt64_eq_ok_iff.1 hread') with
    | overflows => rfl
  · have hx (n : Int) (h : IsNumeral "12x".toList n) : False :=
      absurd (h.isDigit 'x' (by decide)) (by decide)
    refine (hletter hx).2 ?_
    rw [← readInt64_eq_outOfRange_iff, show readInt64 "12x" = .error .malformed from rfl]
    exact fun h ↦ nomatch h
  · have hx (n : Int) (h : IsNumeral "9223372036854775808x".toList n) : False :=
      absurd (h.isDigit 'x' (by decide)) (by decide)
    exact (hbeyond hx).1 (readInt64_eq_outOfRange_iff.1 rfl)

/-- A text that is no numeral overflows the integers of 64 bits. -/
theorem convert_bigInteger_ninesX :
    (∀ n, ¬IsNumeral "99999999999999999999x".toList n) ∧
    bigInteger.convert (.string "99999999999999999999x") =
      .error (.overflow (.string "99999999999999999999x") .bigInteger) := by
  constructor
  · exact fun n h ↦ absurd (h.isDigit 'x' (by decide)) (by decide)
  · exact convert_string_of_beyond (by decide) (readInt64_eq_outOfRange_iff.1 rfl)

end DataType

end LogicalQuery
