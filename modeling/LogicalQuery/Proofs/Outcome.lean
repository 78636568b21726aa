/-!
# Outcomes

Which outcome of a computation that may fail goes back to which outcomes of its parts. Where the
computation is a step on a state that survives failures, a step that fails may still have changed
the state. One that does not has an outcome that tells all that it does (`Settles`).
-/

namespace LogicalQuery

variable {ε α β : Type}

@[simp]
theorem pure_eq_ok (a : α) : (pure a : Except ε α) = .ok a := rfl

@[simp]
theorem ok_bind (a : α) (f : α → Except ε β) : Except.ok a >>= f = f a := rfl

@[simp]
theorem error_bind (e : ε) (f : α → Except ε β) : Except.error e >>= f = .error e := rfl

theorem bind_eq_ok_iff {x : Except ε α} {f : α → Except ε β} {b : β} :
    x >>= f = .ok b ↔ ∃ a, x = .ok a ∧ f a = .ok b := by
  cases x with
  | error e => simp
  | ok a => simp

theorem bind_eq_error_iff {x : Except ε α} {f : α → Except ε β} {e : ε} :
    x >>= f = .error e ↔ x = .error e ∨ ∃ a, x = .ok a ∧ f a = .error e := by
  cases x with
  | error e => simp
  | ok a => simp

theorem map_eq_ok_iff {x : Except ε α} {f : α → β} {b : β} :
    x.map f = .ok b ↔ ∃ a, x = .ok a ∧ f a = b := by
  cases x with
  | error e => simp [Except.map]
  | ok a => simp [Except.map]

theorem map_eq_error_iff {x : Except ε α} {f : α → β} {e : ε} :
    x.map f = .error e ↔ x = .error e := by
  cases x with
  | error e => simp [Except.map]
  | ok a => simp [Except.map]

theorem mapError_eq_ok_iff {ε' : Type} {x : Except ε α} {f : ε → ε'} {a : α} :
    x.mapError f = .ok a ↔ x = .ok a := by
  cases x with
  | error e => constructor <;> (intro h; cases h)
  | ok b => constructor <;> (intro h; cases h; rfl)

theorem toOption_bind (x : Except ε α) (f : α → Except ε β) :
    (x >>= f).toOption = x.toOption.bind fun a ↦ (f a).toOption := by
  cases x <;> rfl

theorem toOption_map (x : Except ε α) (f : α → β) : (x.map f).toOption = x.toOption.map f := by
  cases x <;> rfl

/-- A list of computations succeeds with the results of each of them. -/
theorem mapM_eq_ok_iff {l : List α} {f : α → Except ε β} {bs : List β} :
    l.mapM f = .ok bs ↔ l.map f = bs.map .ok := by
  induction l generalizing bs with
  | nil => simp [eq_comm]
  | cons a l ih =>
    rw [List.mapM_cons, bind_eq_ok_iff, List.map_cons]
    constructor
    · rintro ⟨b, hb, h⟩
      obtain ⟨bs', hbs', h⟩ := bind_eq_ok_iff.1 h
      obtain rfl := Except.ok.inj h
      rw [hb, ih.1 hbs', List.map_cons]
    · intro h
      obtain ⟨b, bs', rfl, hb, hbs'⟩ := List.map_eq_cons_iff.1 h.symm
      exact ⟨b, hb.symm, bind_eq_ok_iff.2 ⟨bs', ih.2 hbs'.symm, rfl⟩⟩

/-- A list of computations succeeds only if each of them does. -/
theorem exists_of_mapM_eq_ok {l : List α} {f : α → Except ε β} {bs : List β}
    (h : l.mapM f = .ok bs) {a : α} (ha : a ∈ l) : ∃ b, f a = .ok b := by
  have hmem : f a ∈ bs.map .ok := mapM_eq_ok_iff.1 h ▸ List.mem_map_of_mem ha
  obtain ⟨b, -, hb⟩ := List.mem_map.1 hmem
  exact ⟨b, hb.symm⟩

/-- A list of computations fails only if one of them does. -/
theorem exists_mem_of_mapM_eq_error {l : List α} {f : α → Except ε β} {e : ε}
    (h : l.mapM f = .error e) : ∃ a ∈ l, f a = .error e := by
  induction l with
  | nil => exact absurd h (by simp)
  | cons a l ih =>
    rw [List.mapM_cons, bind_eq_error_iff] at h
    rcases h with h | ⟨b, -, h⟩
    · exact ⟨a, List.mem_cons_self, h⟩
    · rcases bind_eq_error_iff.1 h with h | ⟨bs, -, h⟩
      · obtain ⟨a', ha', h'⟩ := ih h
        exact ⟨a', List.mem_cons_of_mem _ ha', h'⟩
      · exact absurd h (by simp)

/-! ### Steps on a state -/

/-- The step has the outcome `r` on the state `s`: the state that it leaves, or an error, and then
the state is as it was. -/
def Settles {σ : Type} (step : ExceptT ε (StateM σ) Unit) (s : σ) (r : Except ε σ) : Prop :=
  step.run.run s =
    match r with
    | .ok t => (.ok (), t)
    | .error e => (.error e, s)

namespace Settles

variable {σ : Type} {step : ExceptT ε (StateM σ) Unit} {s : σ} {r r' : Except ε σ}

theorem pure (s : σ) : Settles (pure () : ExceptT ε (StateM σ) Unit) s (.ok s) := rfl

theorem get {f : σ → ExceptT ε (StateM σ) Unit} (h : Settles (f s) s r) :
    Settles (get >>= f) s r := h

theorem discard_get {f : σ → ExceptT ε (StateM σ) α} (h : Settles (discard (f s)) s r) :
    Settles (discard (MonadState.get >>= f)) s r := h

/-- A computation that does not touch the state can be done first. -/
theorem bind {x : Except ε α} {f : α → ExceptT ε (StateM σ) Unit} {g : α → Except ε σ}
    (h : ∀ a, Settles (f a) s (g a)) : Settles (liftM x >>= f) s (x >>= g) := by
  cases x with
  | error e => rfl
  | ok a => exact h a

/-- A step has one outcome. -/
theorem iff (h : Settles step s r) : Settles step s r' ↔ r = r' := by
  unfold Settles at h ⊢
  rw [h]
  cases r <;> cases r' <;> exact Prod.ext_iff.trans (by simp)

end Settles

end LogicalQuery
