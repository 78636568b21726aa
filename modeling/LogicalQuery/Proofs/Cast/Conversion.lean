import LogicalQuery.Proofs.Cast.Registry
import LogicalQuery.Proofs.Cast.Standard
import LogicalQuery.Proofs.Value.Integer

/-!
# Standard casts extend conversion

A conversion is refused where it would lose something, and a standard cast goes on: it wraps
numbers, and takes zero for a text that is no number of the type. Where a value converts, its cast
gives the same value, although a cast reads texts at the width of its target, and a conversion at
the greatest width, to narrow the number afterwards. A cast fails only where an instant is out of
range, and there the conversion fails in the same way (`CastRegistry.standard_extends_convert`).
-/

namespace LogicalQuery

open LogicalQuery.Text

/-! ### Conversions -/

namespace DataType

theorem integerOf_string_eq_ok_iff {target : DataType} {s : String} {n : Int64} :
    integerOf target (.string s) = .ok n ↔ readInt64 s = .ok n := by
  rw [integerOf]
  cases readInt64 s with
  | ok _ => simp
  | error fault => cases fault <;> simp

/-- A text converts to the integer that is read at 32 bits. -/
theorem convert_integer_string_eq_ok_iff {s : String} {w : Value} :
    convert .integer (.string s) = .ok w ↔ ∃ m, readInt32 s = .ok m ∧ .integer m = w := by
  rw [show convert .integer (.string s) = integerOf .integer (.string s) >>= _ from rfl,
    bind_eq_ok_iff]
  simp only [readInt32_eq_ok_iff_readInt64, ← narrow?_eq_some_iff, integerOf_string_eq_ok_iff]
  constructor
  · rintro ⟨n, hn, hw⟩
    cases hm : narrow? n with
    | none =>
      rw [hm] at hw
      exact nomatch hw
    | some m =>
      rw [hm] at hw
      exact ⟨m, ⟨n, hn, hm⟩, Except.ok.inj hw⟩
  · rintro ⟨m, ⟨n, hn, hm⟩, rfl⟩
    exact ⟨n, hn, by rw [hm]⟩

theorem convert_bigInteger_string_eq_ok_iff {s : String} {w : Value} :
    convert .bigInteger (.string s) = .ok w ↔ ∃ n, readInt64 s = .ok n ∧ .bigInteger n = w := by
  rw [show convert .bigInteger (.string s) = (integerOf .bigInteger (.string s)).map _ from rfl,
    map_eq_ok_iff]
  simp only [integerOf_string_eq_ok_iff]

/-- The instant at a number of seconds is a whole second. -/
theorem instantOf_eq_ok_iff {v w : Value} {seconds : Int} :
    instantOf v seconds = .ok w ↔
      ∃ t : Instant, t.seconds = seconds ∧ t.nanos = 0 ∧ .timestampTz t = w := by
  have hunix (t : Instant) :
      Instant.ofUnix? seconds 0 = some t ↔ t.seconds = seconds ∧ t.nanos = 0 := by
    refine Instant.ofUnix?_eq_some_iff.trans (and_iff_right_of_imp fun h hleap ↦ ?_)
    rw [h.2] at hleap
    exact absurd hleap (by decide)
  rw [instantOf]
  cases h : Instant.ofUnix? seconds 0 with
  | none => simp [← and_assoc, ← hunix, h]
  | some t => simp [← and_assoc, ← hunix, h]

/-- There is no instant at a number of seconds before the first one or after the last one. -/
theorem instantOf_eq_error_iff {v : Value} {seconds : Int} {e : Error} :
    instantOf v seconds = .error e ↔
      e = .overflow v .timestampTz ∧ (seconds < -8334601228800 ∨ 8210266876799 < seconds) := by
  have hwhole : (0 < 2 * nanosPerSecond) ∧ (nanosPerSecond ≤ 0 → seconds % 60 = 59) :=
    ⟨by decide, fun h ↦ absurd h (by decide)⟩
  rw [instantOf, Instant.ofUnix?]
  by_cases hrange : -8334601228800 ≤ seconds ∧ seconds ≤ 8210266876799
  · rw [dif_pos ⟨hrange.1, hrange.2, hwhole⟩]
    constructor
    · intro h
      cases h
    · exact fun h ↦ by omega
  · rw [dif_neg fun h ↦ hrange ⟨h.1, h.2.1⟩, Except.error.injEq, eq_comm]
    exact (and_iff_left (by omega)).symm

/-- An integer does not convert to an instant exactly if it is out of range as a number of seconds.
-/
theorem convert_timestampTz_eq_error_iff {source : DataType} {v : Value} {e : Error}
    (hsource : source = .integer ∨ source = .bigInteger) (hv : source.check v = true) :
    convert .timestampTz v = .error e ↔ e = .overflow v .timestampTz ∧
      ∃ n, integerOf .timestampTz v = .ok n ∧
        (n.toInt < -8334601228800 ∨ 8210266876799 < n.toInt) := by
  rcases hsource with rfl | rfl
  · cases v with
    | integer n =>
      show instantOf _ n.toInt = _ ↔ _ ∧ ∃ m, Except.ok n.toInt64 = .ok m ∧ _
      simp only [instantOf_eq_error_iff, Except.ok.injEq, exists_eq_left', Int32.toInt_toInt64]
    | _ => exact nomatch hv
  · cases v with
    | bigInteger n =>
      show instantOf _ n.toInt = _ ↔ _ ∧ ∃ m, Except.ok n = .ok m ∧ _
      simp only [instantOf_eq_error_iff, Except.ok.injEq, exists_eq_left']
    | _ => exact nomatch hv

end DataType

/-! ### Outcomes -/

/-- The number zero as a value of a type of numbers. -/
def DataType.zero? : DataType → Option Value
  | .integer => some (.integer 0)
  | .bigInteger => some (.bigInteger 0)
  | .float => some (.float (.zero false))
  | _ => none

/-- How the outcome of a conversion of the value `v` goes with the outcome of a cast. -/
inductive Extends (source target : DataType) (v : Value) :
    (converted cast : Except Error Value) → Prop
  /-- What converts is cast to the same value. -/
  | agrees (w : Value) : Extends source target v (.ok w) (.ok w)
  /-- A value that does not convert may be cast, but to an instant. -/
  | goesOn (e : Error) (w : Value) (htarget : target ≠ .timestampTz)
    (hzero : source = .string → target.zero? = none) : Extends source target v (.error e) (.ok w)
  /-- A text that does not convert to a number is cast to zero. -/
  | zero (e : Error) (z : Value) (hzero : target.zero? = some z) :
    Extends source target v (.error e) (.ok z)
  /-- An instant out of range is refused by both. -/
  | overflows (htarget : target = .timestampTz) :
    Extends source target v (.error (.overflow v .timestampTz))
      (.error (.overflow v .timestampTz))

namespace Extends

variable {source target : DataType} {v : Value} {converted cast : Except Error Value}

theorem eq_ok {w : Value} (h : Extends source target v converted cast) (hw : converted = .ok w) :
    cast = .ok w := by
  cases h with
  | agrees => exact hw
  | goesOn | zero | overflows => exact nomatch hw

theorem eq_zero {z : Value} {e : Error} (h : Extends source target v converted cast)
    (hsource : source = .string) (hz : target.zero? = some z) (he : converted = .error e) :
    cast = .ok z := by
  cases h with
  | agrees => exact nomatch he
  | goesOn _ _ _ hzero => exact nomatch (hzero hsource).symm.trans hz
  | zero _ _ hzero => rw [Option.some.inj (hzero.symm.trans hz)]
  | overflows htarget =>
    subst htarget
    exact nomatch hz

theorem eq_error_iff {e : Error} (h : Extends source target v converted cast) :
    cast = .error e ↔ target = .timestampTz ∧ converted = .error e := by
  cases h with
  | agrees => simp
  | goesOn _ _ htarget => simp [htarget]
  | zero _ _ hzero =>
    have htarget : target ≠ .timestampTz := by
      rintro rfl
      exact nomatch hzero
    simp [htarget]
  | overflows htarget => simp [htarget]

end Extends

namespace Cast

/-- The cast goes with the conversion to its target, on every value of its source. -/
def ExtendsConvert (c : Cast) : Prop :=
  ∀ v, c.source.check v = true →
    Extends c.source c.target v (c.target.convert v) (c.function v)

variable {target : DataType}

/-- An instant is made in the same way by a conversion and by a cast. -/
theorem extends_instantOf (source : DataType) (v : Value) (seconds : Int) :
    Extends source .timestampTz v (DataType.instantOf v seconds) (DataType.instantOf v seconds) := by
  cases h : DataType.instantOf v seconds with
  | ok w => exact .agrees w
  | error e =>
    obtain ⟨rfl, -⟩ := DataType.instantOf_eq_error_iff.1 h
    exact .overflows rfl

theorem extends_narrow (n : Int64) :
    Extends .bigInteger .integer (.bigInteger n) (DataType.convert .integer (.bigInteger n))
      (.ok (.integer n.toInt32)) := by
  rw [DataType.convert, DataType.integerOf, ok_bind]
  · cases h : DataType.narrow? n with
    | some m =>
      rw [DataType.toInt32_eq_of_narrow? h]
      exact .agrees _
    | none => exact .goesOn _ _ (by decide) (by decide)
  · simp

/-- A reader that takes zero where it fails goes with a conversion that fails there. -/
theorem extends_orElse {α ε : Type} {r : Except ε α} {f : α → Value} {zero : α} {s : String}
    (hconvert : ∀ w, target.convert (.string s) = .ok w ↔ ∃ a, r = .ok a ∧ f a = w)
    (hzero : target.zero? = some (f zero)) :
    Extends .string target (.string s) (target.convert (.string s))
      (.ok (f (orElse zero r))) := by
  cases r with
  | ok a =>
    rw [(hconvert _).2 ⟨a, rfl, rfl⟩]
    exact .agrees _
  | error _ =>
    cases h : target.convert (.string s) with
    | ok w =>
      obtain ⟨a, ha, -⟩ := (hconvert w).1 h
      exact nomatch ha
    | error e => exact .zero e _ hzero

theorem extends_readFloat (s : String) :
    Extends .string .float (.string s) (DataType.convert .float (.string s))
      (.ok (.float ((Binary64.read? s).getD (.zero false)))) := by
  rw [DataType.convert]
  cases Binary64.read? s with
  | some x => exact .agrees _
  | none => exact .zero _ _ rfl

/-- Every standard cast extends the conversion to its target. -/
theorem extendsConvert_of_mem_standard : ∀ c ∈ Cast.standard, c.ExtendsConvert := by
  simp only [standard, List.forall_mem_cons]
  refine ⟨?_, ?_, ?_, ?_, ?_, ?_, ?_, ?_, ?_, ?_, ?_, ?_, ?_, ?_, ?_, ?_, ?_, ?_, ?_, ?_, ?_, ?_,
    ?_⟩
  -- Of integers.
  · exact DataType.forall_of_check fun _ ↦ .agrees _
  · exact DataType.forall_of_check fun _ ↦ .agrees _
  · exact DataType.forall_of_check fun _ ↦ .goesOn _ _ (by decide) (by decide)
  · exact DataType.forall_of_check fun _ ↦ .goesOn _ _ (by decide) (by decide)
  · exact DataType.forall_of_check fun n ↦ extends_instantOf .integer _ n.toInt
  -- Of big integers.
  · exact DataType.forall_of_check extends_narrow
  · exact DataType.forall_of_check fun _ ↦ .agrees _
  · exact DataType.forall_of_check fun _ ↦ .goesOn _ _ (by decide) (by decide)
  · exact DataType.forall_of_check fun _ ↦ .goesOn _ _ (by decide) (by decide)
  · exact DataType.forall_of_check fun n ↦ extends_instantOf .bigInteger _ n.toInt
  -- Of floating-point numbers.
  · exact DataType.forall_of_check fun _ ↦ .goesOn _ _ (by decide) (by decide)
  · exact DataType.forall_of_check fun _ ↦ .goesOn _ _ (by decide) (by decide)
  · exact DataType.forall_of_check fun _ ↦ .goesOn _ _ (by decide) (by decide)
  · exact DataType.forall_of_check fun _ ↦ .goesOn _ _ (by decide) (by decide)
  -- Of truth values.
  · exact DataType.forall_of_check fun _ ↦ .goesOn _ _ (by decide) (by decide)
  · exact DataType.forall_of_check fun _ ↦ .goesOn _ _ (by decide) (by decide)
  · exact DataType.forall_of_check fun _ ↦ .goesOn _ _ (by decide) (by decide)
  · exact DataType.forall_of_check fun _ ↦ .goesOn _ _ (by decide) (by decide)
  -- Of texts.
  · exact DataType.forall_of_check fun _ ↦
      extends_orElse (fun _ ↦ DataType.convert_integer_string_eq_ok_iff) rfl
  · exact DataType.forall_of_check fun _ ↦
      extends_orElse (fun _ ↦ DataType.convert_bigInteger_string_eq_ok_iff) rfl
  · exact DataType.forall_of_check extends_readFloat
  · exact DataType.forall_of_check fun _ ↦ .goesOn _ _ (by decide) fun _ ↦ rfl
  · simp

/-- No standard cast leads from a type to itself. -/
theorem source_ne_target_of_mem_standard : ∀ c ∈ Cast.standard, c.source ≠ c.target := by
  decide

/-- The standard casts to instants are those of the integers. -/
theorem source_of_mem_standard_of_timestampTz :
    ∀ c ∈ Cast.standard, c.target = .timestampTz → c.source = .integer ∨ c.source = .bigInteger := by
  decide

end Cast

/-! ### The standard registry -/

namespace CastRegistry

/-- The pairs of the standard registry have the functions of the standard casts. -/
theorem exists_of_mem_pairs_standard {source target : DataType}
    (h : (source, target) ∈ standard.pairs) :
    ∃ c ∈ Cast.standard, c.source = source ∧ c.target = target ∧
      standard.function source target = .ok c.function := by
  have hne : source ≠ target := by
    obtain ⟨c, hc, hpair⟩ := List.mem_map.1 h
    obtain ⟨rfl, rfl⟩ := Prod.mk.inj hpair
    exact Cast.source_ne_target_of_mem_standard c (mem_of_mem_ofList hc)
  obtain ⟨c, hc, hpair, hfunction⟩ := exists_of_mem_pairs h hne
  obtain ⟨hsource, htarget⟩ := Prod.mk.inj hpair
  exact ⟨c, mem_of_mem_ofList hc, hsource, htarget, hfunction⟩

/-- **Standard casts extend conversion.** Each pair of the standard registry has a function that
gives what conversion gives, wherever a value of the source type converts, and zero for a text that
does not convert to a number. It fails only to make an instant, exactly where conversion fails, and
with its error: the overflow of a number of seconds before the first instant or after the last one.
-/
theorem standard_extends_convert {source target : DataType}
    (h : (source, target) ∈ standard.pairs) :
    ∃ f, standard.function source target = .ok f ∧ ∀ v, source.check v = true →
      (∀ w, target.convert v = .ok w → f v = .ok w) ∧
      (∀ z e, source = .string → target.zero? = some z → target.convert v = .error e →
        f v = .ok z) ∧
      (∀ e, f v = .error e ↔ target = .timestampTz ∧ target.convert v = .error e) ∧
      (target = .timestampTz → ∀ e, target.convert v = .error e ↔
        e = .overflow v .timestampTz ∧ ∃ n, DataType.integerOf .timestampTz v = .ok n ∧
          (n.toInt < -8334601228800 ∨ 8210266876799 < n.toInt)) := by
  obtain ⟨c, hc, rfl, rfl, hfunction⟩ := exists_of_mem_pairs_standard h
  refine ⟨c.function, hfunction, fun v hv ↦ ?_⟩
  have hextends := Cast.extendsConvert_of_mem_standard c hc v hv
  refine ⟨fun w hw ↦ hextends.eq_ok hw, fun z e hs hz he ↦ hextends.eq_zero hs hz he,
    fun e ↦ hextends.eq_error_iff, fun ht e ↦ ?_⟩
  rw [ht]
  exact DataType.convert_timestampTz_eq_error_iff (Cast.source_of_mem_standard_of_timestampTz c hc ht)
    hv

/-- A text with a sign is read, one that is too great gives zero, and the first second after the
last instant has no instant. -/
theorem standard_extends_convert_edges :
    ∃ f g, standard.function .string .integer = .ok f ∧
      standard.function .bigInteger .timestampTz = .ok g ∧
      f (.string "+7") = .ok (.integer 7) ∧ f (.string "2147483648") = .ok (.integer 0) ∧
      g (.bigInteger 8210266876800) =
        .error (.overflow (.bigInteger 8210266876800) .timestampTz) := by
  obtain ⟨f, hf, htext⟩ := standard_extends_convert
    (show (.string, .integer) ∈ standard.pairs by decide)
  obtain ⟨g, hg, hinstant⟩ := standard_extends_convert
    (show (.bigInteger, .timestampTz) ∈ standard.pairs by decide)
  obtain ⟨hseven, -⟩ := htext (.string "+7") rfl
  obtain ⟨-, hzero, -⟩ := htext (.string "2147483648") rfl
  obtain ⟨-, -, herror, hrange⟩ := hinstant (.bigInteger 8210266876800) rfl
  have hlarge : DataType.convert .integer (.string "2147483648") =
      .error (.overflow (.string "2147483648") .integer) := by decide
  refine ⟨f, g, hf, hg, hseven _ (by decide), hzero _ _ rfl rfl hlarge, ?_⟩
  exact (herror _).2 ⟨rfl, (hrange rfl _).2 ⟨rfl, _, rfl, .inr (by decide)⟩⟩

end CastRegistry

end LogicalQuery
