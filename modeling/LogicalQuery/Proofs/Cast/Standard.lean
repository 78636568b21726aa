import LogicalQuery.Cast.Standard
import LogicalQuery.Proofs.Outcome
import LogicalQuery.Proofs.Value.Order

/-!
# The standard casts keep their promises

On every value of its source type, a standard cast gives a value of its target type, or it leads to
instants and the value overflows them. Whatever value it is given, it reports no unresolved
expression (`Cast.JudgesValues`).
-/

namespace LogicalQuery

/-- The outcome of casting the value `v` is a value of the type `target`, or `target` is the type
of instants and `v` overflows it. -/
def IsCastOf (target : DataType) (v : Value) (outcome : Except Error Value) : Prop :=
  (∃ w, outcome = .ok w ∧ target.check w = true) ∨
    target = .timestampTz ∧ outcome = .error (.overflow v .timestampTz)

theorem isCastOf_ok {target : DataType} {v w : Value} (h : target.check w = true) :
    IsCastOf target v (.ok w) :=
  .inl ⟨w, rfl, h⟩

theorem isCastOf_instantOf (v : Value) (seconds : Int) :
    IsCastOf .timestampTz v (DataType.instantOf v seconds) := by
  unfold DataType.instantOf
  split
  next => exact isCastOf_ok rfl
  next => exact .inr ⟨rfl, rfl⟩

/-! ### Single casts -/

namespace Cast

/-- The cast is one from its source type to its target type. -/
def Sound (c : Cast) : Prop := ∀ v, c.source.check v = true → IsCastOf c.target v (c.function v)

/-- **Every standard cast is sound.** -/
theorem sound_of_mem_standard : ∀ c ∈ Cast.standard, c.Sound := by
  simp only [standard, List.forall_mem_cons]
  refine ⟨?_, ?_, ?_, ?_, ?_, ?_, ?_, ?_, ?_, ?_, ?_, ?_, ?_, ?_, ?_, ?_, ?_, ?_, ?_, ?_, ?_, ?_,
    ?_⟩
  -- Of integers.
  · exact DataType.forall_of_check fun _ ↦ isCastOf_ok rfl
  · exact DataType.forall_of_check fun _ ↦ isCastOf_ok rfl
  · exact DataType.forall_of_check fun _ ↦ isCastOf_ok rfl
  · exact DataType.forall_of_check fun _ ↦ isCastOf_ok rfl
  · exact DataType.forall_of_check fun _ ↦ isCastOf_instantOf ..
  -- Of big integers.
  · exact DataType.forall_of_check fun _ ↦ isCastOf_ok rfl
  · exact DataType.forall_of_check fun _ ↦ isCastOf_ok rfl
  · exact DataType.forall_of_check fun _ ↦ isCastOf_ok rfl
  · exact DataType.forall_of_check fun _ ↦ isCastOf_ok rfl
  · exact DataType.forall_of_check fun _ ↦ isCastOf_instantOf ..
  -- Of floating-point numbers.
  · exact DataType.forall_of_check fun _ ↦ isCastOf_ok rfl
  · exact DataType.forall_of_check fun _ ↦ isCastOf_ok rfl
  · exact DataType.forall_of_check fun _ ↦ isCastOf_ok rfl
  · exact DataType.forall_of_check fun _ ↦ isCastOf_ok rfl
  -- Of truth values.
  · exact DataType.forall_of_check fun _ ↦ isCastOf_ok rfl
  · exact DataType.forall_of_check fun _ ↦ isCastOf_ok rfl
  · exact DataType.forall_of_check fun _ ↦ isCastOf_ok rfl
  · exact DataType.forall_of_check fun _ ↦ isCastOf_ok rfl
  -- Of texts.
  · exact DataType.forall_of_check fun _ ↦ isCastOf_ok rfl
  · exact DataType.forall_of_check fun _ ↦ isCastOf_ok rfl
  · exact DataType.forall_of_check fun _ ↦ isCastOf_ok rfl
  · exact DataType.forall_of_check fun _ ↦ isCastOf_ok rfl
  · simp

/-- The function does not report that an expression is unresolved. It is given a value, and such an
error is about a name. -/
def JudgesValues (f : CastFunction) : Prop := ∀ v n, f v ≠ .error (.unresolvedExpression n)

section

variable {α : Type} {source : DataType} {content? : Value → Option α}

theorem exists_mismatch_of_expect {v : Value} {e : Error}
    (h : expect source content? v = .error e) : ∃ actual, e = .typeMismatch source actual := by
  rw [expect] at h
  split at h
  next => exact nomatch h
  next => exact ⟨_, (Except.error.inj h).symm⟩

theorem judgesValues_bind {f : α → Except Error Value}
    (hf : ∀ a n, f a ≠ .error (.unresolvedExpression n)) :
    JudgesValues fun v ↦ expect source content? v >>= f := by
  intro v n h
  rcases bind_eq_error_iff.1 h with h | ⟨a, -, h⟩
  · obtain ⟨actual, heq⟩ := exists_mismatch_of_expect h
    exact nomatch heq
  · exact hf a n h

theorem judgesValues_map {f : α → Value} :
    JudgesValues fun v ↦ (expect source content? v).map f := by
  intro v n h
  obtain ⟨actual, heq⟩ := exists_mismatch_of_expect (map_eq_error_iff.1 h)
  exact nomatch heq

end

theorem instantOf_ne_unresolved (v : Value) (seconds : Int) (n : String) :
    DataType.instantOf v seconds ≠ .error (.unresolvedExpression n) := by
  rcases isCastOf_instantOf v seconds with ⟨w, heq, -⟩ | ⟨-, heq⟩
  · exact fun h ↦ nomatch heq.symm.trans h
  · exact fun h ↦ nomatch heq.symm.trans h

theorem judgesValues_of_mem_standard : ∀ c ∈ Cast.standard, JudgesValues c.function := by
  have hok {α : Type} {f : α → Value} (a : α) (n : String) :
      Except.ok (f a) ≠ .error (Error.unresolvedExpression n) := fun h ↦ nomatch h
  simp only [standard, List.forall_mem_cons]
  -- Integers of either width may lead to instants, which may be out of range.
  refine ⟨judgesValues_bind hok, judgesValues_bind hok, judgesValues_bind hok,
    judgesValues_bind hok, judgesValues_bind fun _ ↦ instantOf_ne_unresolved _ _,
    judgesValues_bind hok, judgesValues_bind hok, judgesValues_bind hok, judgesValues_bind hok,
    judgesValues_bind fun _ ↦ instantOf_ne_unresolved _ _, ?_⟩
  exact ⟨judgesValues_map, judgesValues_map, judgesValues_map, judgesValues_map, judgesValues_map,
    judgesValues_map, judgesValues_map, judgesValues_map, judgesValues_map, judgesValues_map,
    judgesValues_map, judgesValues_map, fun _ hc ↦ absurd hc List.not_mem_nil⟩

end Cast

/-! ### Registries -/

namespace CastRegistry

theorem mem_insertInto {c d : Cast} {casts : List Cast} (h : d ∈ insertInto c casts) :
    d = c ∨ d ∈ casts := by
  induction casts with
  | nil => exact .inl (List.mem_singleton.1 h)
  | cons e casts ih =>
    rw [insertInto] at h
    split at h
    next => exact (List.mem_cons.1 h).imp_right (List.mem_cons_of_mem e)
    next =>
      rcases List.mem_cons.1 h with rfl | h
      · exact .inr List.mem_cons_self
      · exact (ih h).imp_right (List.mem_cons_of_mem e)

/-- A registry holds only casts that have been registered. -/
theorem mem_of_mem_ofList {c : Cast} {casts : List Cast} (h : c ∈ (ofList casts).casts) :
    c ∈ casts := by
  have hfold (casts : List Cast) (r : CastRegistry) (h : c ∈ (casts.foldl register r).casts) :
      c ∈ casts ∨ c ∈ r.casts := by
    induction casts generalizing r with
    | nil => exact .inr h
    | cons d casts ih =>
      rcases ih (r.register d) h with h | h
      · exact .inl (List.mem_cons_of_mem d h)
      · rcases mem_insertInto h with rfl | h
        · exact .inl List.mem_cons_self
        · exact .inr h
  rcases hfold casts empty h with h | h
  · exact h
  · exact absurd h List.not_mem_nil

/-- A function of the standard registry is the identity on a single type, or that of a standard
cast. -/
theorem cases_of_function_standard {source target : DataType} {f : CastFunction}
    (h : standard.function source target = .ok f) :
    source = target ∧ f = .ok ∨
      ∃ c ∈ Cast.standard, c.source = source ∧ c.target = target ∧ c.function = f := by
  rw [function] at h
  split at h
  next heq => exact .inl ⟨heq, (Except.ok.inj h).symm⟩
  next =>
    cases hfind : standard.casts.find? (isFor source target) with
    | none =>
      rw [hfind] at h
      cases h
    | some c =>
      rw [hfind] at h
      have hfor := List.find?_some hfind
      simp only [isFor, Bool.and_eq_true, beq_iff_eq] at hfor
      have hmem := mem_of_mem_ofList (List.mem_of_find?_eq_some hfind)
      exact .inr ⟨c, hmem, hfor.1, hfor.2, Except.ok.inj h⟩

/-- The functions of the registry are casts between the types for which they are found. -/
def Sound (r : CastRegistry) : Prop :=
  ∀ source target f, r.function source target = .ok f →
    ∀ v, source.check v = true → IsCastOf target v (f v)

/-- **The standard registry is sound.** -/
theorem sound_standard : standard.Sound := by
  intro source target f hf v hv
  rcases cases_of_function_standard hf with ⟨rfl, rfl⟩ | ⟨c, hc, rfl, rfl, rfl⟩
  · exact isCastOf_ok hv
  · exact Cast.sound_of_mem_standard c hc v hv

/-- The functions of the standard registry judge values, and never complain of a name. -/
theorem judgesValues_standard {source target : DataType} {f : CastFunction}
    (h : standard.function source target = .ok f) : Cast.JudgesValues f := by
  rcases cases_of_function_standard h with ⟨-, rfl⟩ | ⟨c, hc, -, -, rfl⟩
  · exact fun _ _ heq ↦ nomatch heq
  · exact Cast.judgesValues_of_mem_standard c hc

end CastRegistry

end LogicalQuery
