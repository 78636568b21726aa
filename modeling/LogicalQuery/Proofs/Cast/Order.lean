import LogicalQuery.Cast.Standard
import LogicalQuery.Proofs.Binary64.Integer
import LogicalQuery.Proofs.Cast.Conversion

/-!
# Widening casts keep the order

A comparison of two types is made at the greater one, after a standard cast of one operand. The casts
of integers to greater types never put two values in the opposite order, and they make no two of them
equal, except big integers that are rounded to the same floating-point number
(`CastRegistry.standard_widening_lt`).
-/

namespace LogicalQuery

theorem Instant.compare_eq_lt {s t : Instant} (h : s.seconds < t.seconds) : s.compare t = .lt := by
  rw [Instant.compare, Int.compare_eq_lt.2 h]
  rfl

namespace DataType

variable {a b : Value}

theorem exists_lt_of_compare_integer (h : integer.compare a b = .ok .lt) :
    ∃ m n : Int32, a = .integer m ∧ b = .integer n ∧ m.toInt < n.toInt := by
  obtain ⟨m, n, rfl, rfl, hlt⟩ := exists_contents_of_compare h
  exact ⟨m, n, rfl, rfl, Int.compare_eq_lt.1 hlt⟩

theorem exists_lt_of_compare_bigInteger (h : bigInteger.compare a b = .ok .lt) :
    ∃ m n : Int64, a = .bigInteger m ∧ b = .bigInteger n ∧ m.toInt < n.toInt := by
  obtain ⟨m, n, rfl, rfl, hlt⟩ := exists_contents_of_compare h
  exact ⟨m, n, rfl, rfl, Int.compare_eq_lt.1 hlt⟩

/-- Of two numbers that integers become, the one of the lesser integer is less, or both are the same
since one of the integers has more than 53 binary digits. -/
theorem compare_ofInt_lt {i j : Int} (h : i < j) :
    float.compare (.float (.ofInt i)) (.float (.ofInt j)) = .ok .lt ∨
      (2 ^ 53 < i.natAbs ∨ 2 ^ 53 < j.natAbs) ∧
        float.compare (.float (.ofInt i)) (.float (.ofInt j)) = .ok .eq := by
  show Except.ok ((Binary64.ofInt i).compareTotal (.ofInt j)) = _ ∨
    _ ∧ Except.ok ((Binary64.ofInt i).compareTotal (.ofInt j)) = _
  cases hcmp : (Binary64.ofInt i).compareTotal (.ofInt j) with
  | lt => exact .inl rfl
  | eq =>
    refine .inr ⟨?_, rfl⟩
    by_contra hexact
    have hinj := (Binary64.ofInt_inj (i := i) (j := j) (by omega) (by omega)).1
      (Binary64.compareTotal_eq_eq_iff.1 hcmp)
    omega
  | gt => exact absurd hcmp (Binary64.compareTotal_ofInt_ne_gt h.le)

/-- Of two instants at whole seconds, the one at fewer seconds is less. -/
theorem compare_instantOf_lt {v w : Value} {i j : Int} (h : i < j) (ha : instantOf v i = .ok a)
    (hb : instantOf w j = .ok b) : timestampTz.compare a b = .ok .lt := by
  obtain ⟨s, hs, -, rfl⟩ := instantOf_eq_ok_iff.1 ha
  obtain ⟨t, ht, -, rfl⟩ := instantOf_eq_ok_iff.1 hb
  exact congrArg Except.ok (Instant.compare_eq_lt (by rw [hs, ht]; exact h))

end DataType

/-- The value holds an integer of more than 53 binary digits. -/
def Value.BeyondExact (v : Value) : Prop := ∃ n, v.toInt? = some n ∧ 2 ^ 53 < n.natAbs

namespace CastRegistry

/-- The pairs of types between which integers are cast to a greater type. -/
def widenings : List (DataType × DataType) :=
  [(.integer, .bigInteger), (.integer, .float), (.integer, .timestampTz), (.bigInteger, .float),
    (.bigInteger, .timestampTz)]

/-- **Widening casts keep the order.** Let an integer be less than another one of its type. Cast to a
greater type, it still is less, if both are cast, except that two big integers can become the same
floating-point number, if the absolute value of one of them is greater than `2 ^ 53`. -/
theorem standard_widening_lt {source target : DataType} (h : (source, target) ∈ widenings) :
    ∃ f, standard.function source target = .ok f ∧ ∀ a b a' b',
      source.compare a b = .ok .lt → f a = .ok a' → f b = .ok b' →
        target.compare a' b' = .ok .lt ∨
          (source = .bigInteger ∧ target = .float ∧ (a.BeyondExact ∨ b.BeyondExact)) ∧
            target.compare a' b' = .ok .eq := by
  simp only [widenings, List.mem_cons, List.not_mem_nil, or_false, Prod.mk.injEq] at h
  rcases h with ⟨rfl, rfl⟩ | ⟨rfl, rfl⟩ | ⟨rfl, rfl⟩ | ⟨rfl, rfl⟩ | ⟨rfl, rfl⟩
  · refine ⟨_, rfl, fun a b a' b' hlt ha hb ↦ .inl ?_⟩
    obtain ⟨m, n, rfl, rfl, hmn⟩ := DataType.exists_lt_of_compare_integer hlt
    obtain rfl := Except.ok.inj ha
    obtain rfl := Except.ok.inj hb
    rw [← Int32.toInt_toInt64 m, ← Int32.toInt_toInt64 n] at hmn
    exact congrArg Except.ok (Int.compare_eq_lt.2 hmn)
  · refine ⟨_, rfl, fun a b a' b' hlt ha hb ↦ .inl ?_⟩
    obtain ⟨m, n, rfl, rfl, hmn⟩ := DataType.exists_lt_of_compare_integer hlt
    obtain rfl := Except.ok.inj ha
    obtain rfl := Except.ok.inj hb
    have hm := Binary64.natAbs_toInt_le m
    have hn := Binary64.natAbs_toInt_le n
    exact (DataType.compare_ofInt_lt hmn).resolve_right fun h ↦ by omega
  · refine ⟨_, rfl, fun a b a' b' hlt ha hb ↦ .inl ?_⟩
    obtain ⟨m, n, rfl, rfl, hmn⟩ := DataType.exists_lt_of_compare_integer hlt
    exact DataType.compare_instantOf_lt hmn ha hb
  · refine ⟨_, rfl, fun a b a' b' hlt ha hb ↦ ?_⟩
    obtain ⟨m, n, rfl, rfl, hmn⟩ := DataType.exists_lt_of_compare_bigInteger hlt
    obtain rfl := Except.ok.inj ha
    obtain rfl := Except.ok.inj hb
    refine (DataType.compare_ofInt_lt hmn).imp_right fun ⟨hbeyond, heq⟩ ↦ ⟨⟨rfl, rfl, ?_⟩, heq⟩
    exact hbeyond.imp (fun h ↦ ⟨_, rfl, h⟩) fun h ↦ ⟨_, rfl, h⟩
  · refine ⟨_, rfl, fun a b a' b' hlt ha hb ↦ .inl ?_⟩
    obtain ⟨m, n, rfl, rfl, hmn⟩ := DataType.exists_lt_of_compare_bigInteger hlt
    exact DataType.compare_instantOf_lt hmn ha hb

/-- The first integer that is no floating-point number becomes the same number as the one below it. -/
theorem standard_widening_lt_rounded :
    ∃ f w, standard.function .bigInteger .float = .ok f ∧
      DataType.bigInteger.compare (.bigInteger 9007199254740992) (.bigInteger 9007199254740993) =
        .ok .lt ∧
      f (.bigInteger 9007199254740992) = .ok w ∧ f (.bigInteger 9007199254740993) = .ok w ∧
      (DataType.float.compare w w = .ok .lt ∨
        ((Value.bigInteger 9007199254740992).BeyondExact ∨
          (Value.bigInteger 9007199254740993).BeyondExact) ∧
          DataType.float.compare w w = .ok .eq) := by
  obtain ⟨f, hf, horder⟩ := standard_widening_lt (show (.bigInteger, .float) ∈ widenings by decide)
  obtain rfl := Except.ok.inj (hf.symm.trans rfl)
  have hlt : DataType.bigInteger.compare (.bigInteger 9007199254740992)
      (.bigInteger 9007199254740993) = .ok .lt := rfl
  have hsame : Value.float (.ofInt 9007199254740993) = .float (.ofInt 9007199254740992) := by
    decide +kernel
  have hcast := congrArg (@Except.ok Error Value) hsame
  refine ⟨_, .float (.ofInt 9007199254740992), hf, hlt, rfl, hcast, ?_⟩
  exact (horder _ _ _ _ hlt rfl hcast).imp_right fun ⟨⟨_, _, hbeyond⟩, heq⟩ ↦ ⟨hbeyond, heq⟩

end CastRegistry

end LogicalQuery
