import LogicalQuery.Aggregate
import LogicalQuery.Proofs.Outcome
import Mathlib.Algebra.Ring.Int.Defs
import Mathlib.Algebra.Ring.Nat

/-!
# Buffers of aggregates

What one step of an aggregate does to a buffer. Any row can serve as a buffer, and a step that fails
leaves it as it was, so that its outcome tells all that it does (`Settles`). The buffers that an
aggregate can reach have a single field: under `count` a number that is not negative, under `first`
any value. On these buffers a new buffer is neutral for `merge` on the right
(`after_merge_newBuffer`), and a row that is folded into the later of two buffers can as well be
folded in after their merge (`exists_after_merge`). What is known of groups that are cut into parts
rests on these two facts.
-/

namespace LogicalQuery

namespace Aggregate

variable {a : Aggregate}

/-! ### The first field -/

@[simp]
theorem slot_singleton (v : Value) : slot ⟨[v]⟩ = .ok v := rfl

@[simp]
theorem counter_singleton (n : Int32) : counter ⟨[.integer n]⟩ = .ok n := rfl

theorem slot_eq_ok_iff {b : Row} {v : Value} : slot b = .ok v ↔ b.get? 0 = some v := by
  unfold slot
  cases b.get? 0 <;> simp

theorem counter_eq_ok_iff {b : Row} {n : Int32} :
    counter b = .ok n ↔ b.get? 0 = some (.integer n) := by
  rw [← slot_eq_ok_iff, counter]
  cases slot b with
  | error e => simp
  | ok v =>
    rw [ok_bind]
    cases v <;> simp [throw, throwThe, MonadExceptOf.throw]

/-- The buffer with another value in its first field. -/
def put (b : Row) (v : Value) : Except Error Row :=
  match b.set? 0 v with
  | some c => .ok c
  | none => .error (.invalidExpression .emptyBuffer)

theorem put_eq_ok_iff {b c : Row} {v : Value} : put b v = .ok c ↔ b.set? 0 v = some c := by
  rw [put]
  cases b.set? 0 v <;> simp

/-! ### Steps on any buffer -/

theorem after_eq_of_settles {step : BufferM Unit} {b : Row} {r : Except Error Row}
    (h : Settles step b r) : after step b = r := by
  unfold Settles at h
  rw [after, h]
  cases r <;> rfl

theorem settles_store (b : Row) (v : Value) : Settles (store v) b (put b v) := by
  unfold Settles put
  show (match b.set? 0 v with
    | some buffer => (set buffer : BufferM Unit)
    | none => throw (Error.invalidExpression .emptyBuffer)).run.run b = _
  cases b.set? 0 v <;> rfl

/-! ### Sums of counts -/

/-- Two counts have a sum exactly when an integer of 32 bits is that sum. -/
theorem addCounts_eq_ok_iff {m n k : Int32} :
    addCounts m n = .ok k ↔ k.toInt = m.toInt + n.toInt := by
  have hk := k.toInt_lt
  have hk' := k.le_toInt
  unfold addCounts
  rw [Int32.toInt_minValue, Int32.toInt_maxValue]
  split
  next h =>
    have hadd : (m + n).toInt = m.toInt + n.toInt := by
      rw [Int32.toInt_add]
      exact Int.bmod_eq_of_le (by omega) (by omega)
    rw [Except.ok.injEq, ← Int32.toInt_inj, hadd]
    exact eq_comm
  next h =>
    constructor
    · exact fun h' ↦ nomatch h'
    · intro h'
      exact absurd (by omega) h

/-- Two counts without a sum overflow. -/
theorem addCounts_eq_error_iff {m n : Int32} {e : Error} :
    addCounts m n = .error e ↔
      ¬(-2 ^ 31 ≤ m.toInt + n.toInt ∧ m.toInt + n.toInt ≤ 2 ^ 31 - 1) ∧ e = .countOverflow m n := by
  unfold addCounts
  rw [Int32.toInt_minValue, Int32.toInt_maxValue]
  split
  next h =>
    constructor
    · exact fun h' ↦ nomatch h'
    · exact fun h' ↦ absurd h h'.1
  next h => rw [and_iff_right h, Except.error.injEq, eq_comm]

/-! ### The steps of an aggregate -/

/-- Whether a row is counted: every row is under `count(*)`, and otherwise each row on which the
child is not null. -/
def counted (a : Aggregate) (row : Row) : Except Error Bool :=
  if a.countsRows then .ok true else (a.child.eval row).map fun v ↦ !v.isNull

theorem settles_update_count (ha : a.function = .count) (row b : Row) :
    Settles (a.update row) b (do
      if ← a.counted row then
        let n ← counter b
        put b (.integer (← addCounts n 1))
      else return b) := by
  have hadd : Settles (show BufferM Unit from do
      let n ← counter (← get)
      store (.integer (← addCounts n 1))) b (do
        let n ← counter b
        put b (.integer (← addCounts n 1))) :=
    .get (.bind fun n ↦ .bind fun k ↦ settles_store b (.integer k))
  unfold counted update
  rw [ha]
  cases a.countsRows with
  | true => exact hadd
  | false =>
    cases a.child.eval row with
    | error e => rfl
    | ok v =>
      cases v with
      | null => rfl
      | _ => exact hadd

theorem settles_update_first (ha : a.function = .first) (row b : Row) :
    Settles (a.update row) b (do
      if (← slot b).isNull then put b (← a.child.eval row) else return b) := by
  unfold update
  rw [ha]
  refine .get (.bind fun v ↦ ?_)
  cases v.isNull with
  | false => exact .pure b
  | true => exact .bind fun w ↦ settles_store b w

theorem settles_merge_count (ha : a.function = .count) (later b : Row) :
    Settles (a.merge later) b (do
      let n ← counter b
      let m ← counter later
      put b (.integer (← addCounts n m))) := by
  unfold merge
  rw [ha]
  exact .get (.bind fun n ↦ .bind fun m ↦ .bind fun k ↦ settles_store b (.integer k))

theorem settles_merge_first (ha : a.function = .first) (later b : Row) :
    Settles (a.merge later) b (do
      if (← slot b).isNull then put b (← slot later) else return b) := by
  unfold merge
  rw [ha]
  refine .get (.bind fun v ↦ ?_)
  cases v.isNull with
  | false => exact .pure b
  | true => exact .bind fun w ↦ settles_store b w

/-! ### One step on one field -/

/-- A row that is counted adds one to the count. -/
theorem after_update_count (ha : a.function = .count) (row : Row) (n : Int32) :
    after (a.update row) ⟨[.integer n]⟩ =
      (a.counted row).bind fun b ↦
        if b then (addCounts n 1).map fun k ↦ ⟨[.integer k]⟩ else .ok ⟨[.integer n]⟩ := by
  rw [after_eq_of_settles (settles_update_count ha row _), counter_singleton, ok_bind]
  cases addCounts n 1 <;> rfl

/-- A row is evaluated for the first value as long as none is found. -/
theorem after_update_first (ha : a.function = .first) (row : Row) (v : Value) :
    after (a.update row) ⟨[v]⟩ =
      if v.isNull then (a.child.eval row).map fun w ↦ ⟨[w]⟩ else .ok ⟨[v]⟩ := by
  rw [after_eq_of_settles (settles_update_first ha row _), slot_singleton, ok_bind]
  cases a.child.eval row <;> rfl

/-- Merging adds the counts. -/
theorem after_merge_count (ha : a.function = .count) (m n : Int32) :
    after (a.merge ⟨[.integer m]⟩) ⟨[.integer n]⟩ =
      (addCounts n m).map fun k ↦ ⟨[.integer k]⟩ := by
  rw [after_eq_of_settles (settles_merge_count ha _ _), counter_singleton, counter_singleton,
    ok_bind, ok_bind]
  cases addCounts n m <;> rfl

/-- Merging takes the later value if the earlier part has none. -/
theorem after_merge_first (ha : a.function = .first) (v w : Value) :
    after (a.merge ⟨[w]⟩) ⟨[v]⟩ = .ok ⟨[if v.isNull then w else v]⟩ := by
  rw [after_eq_of_settles (settles_merge_first ha _ _), slot_singleton, slot_singleton, ok_bind,
    ok_bind]
  cases v.isNull <;> rfl

/-! ### Outcomes of steps -/

theorem exists_toInt_eq {i : Int} (h : 0 ≤ i) (h' : i < 2 ^ 31) : ∃ k : Int32, k.toInt = i :=
  ⟨.ofInt i, Int32.toInt_ofInt_of_le (by omega) h'⟩

theorem after_update_count_eq_ok_iff (ha : a.function = .count) {row : Row} {n : Int32} {c : Row} :
    after (a.update row) ⟨[.integer n]⟩ = .ok c ↔
      ∃ b k, a.counted row = .ok b ∧ k.toInt = n.toInt + (if b then 1 else 0) ∧
        c = ⟨[.integer k]⟩ := by
  rw [after_update_count ha]
  cases a.counted row with
  | error e => simp [Except.bind]
  | ok b =>
    cases b with
    | false =>
      simp only [Except.bind, Bool.false_eq_true, if_false, Except.ok.injEq]
      constructor
      · rintro rfl
        exact ⟨false, n, rfl, by simp, rfl⟩
      · rintro ⟨b, k, rfl, hk, rfl⟩
        rw [if_neg (by decide), Int.add_zero, Int32.toInt_inj] at hk
        rw [hk]
    | true =>
      simp only [Except.bind, if_true]
      constructor
      · intro h
        cases hk : addCounts n 1 with
        | error e => rw [hk] at h; exact nomatch h
        | ok k =>
          rw [hk] at h
          exact ⟨true, k, rfl, addCounts_eq_ok_iff.1 hk, (Except.ok.inj h).symm⟩
      · rintro ⟨b, k, hb, hk, rfl⟩
        obtain rfl := Except.ok.inj hb
        rw [addCounts_eq_ok_iff.2 hk]
        rfl

/-- Counting a row fails with the child, or because the count is the greatest one already. -/
theorem after_update_count_eq_error_iff (ha : a.function = .count) {row : Row} {n : Int32}
    {e : Error} :
    after (a.update row) ⟨[.integer n]⟩ = .error e ↔
      a.counted row = .error e ∨
        a.counted row = .ok true ∧ n = Int32.maxValue ∧ e = .countOverflow Int32.maxValue 1 := by
  have hlow := n.le_toInt
  have hhigh := n.toInt_lt
  have hone : (1 : Int32).toInt = 1 := rfl
  have hgreatest : ¬(-2 ^ 31 ≤ n.toInt + 1 ∧ n.toInt + 1 ≤ 2 ^ 31 - 1) ↔ n = Int32.maxValue := by
    rw [← Int32.toInt_inj, Int32.toInt_maxValue]
    omega
  rw [after_update_count ha]
  cases a.counted row with
  | error e' => simp [Except.bind]
  | ok b =>
    cases b with
    | false => simp [Except.bind]
    | true =>
      show (addCounts n 1).map _ = _ ↔ _
      rw [map_eq_error_iff, addCounts_eq_error_iff, hone, hgreatest]
      constructor
      · rintro ⟨rfl, rfl⟩
        exact .inr ⟨rfl, rfl, rfl⟩
      · rintro (h | ⟨-, rfl, rfl⟩)
        · exact nomatch h
        · exact ⟨rfl, rfl⟩

theorem after_update_first_eq_ok_iff (ha : a.function = .first) {row : Row} {v : Value} {c : Row} :
    after (a.update row) ⟨[v]⟩ = .ok c ↔
      ∃ w, (if v.isNull then a.child.eval row = .ok w else w = v) ∧ c = ⟨[w]⟩ := by
  rw [after_update_first ha]
  cases v.isNull with
  | false => simp [eq_comm]
  | true => cases a.child.eval row <;> simp [Except.map, eq_comm]

theorem after_merge_count_eq_ok_iff (ha : a.function = .count) {m n : Int32} {c : Row} :
    after (a.merge ⟨[.integer m]⟩) ⟨[.integer n]⟩ = .ok c ↔
      ∃ k : Int32, k.toInt = n.toInt + m.toInt ∧ c = ⟨[.integer k]⟩ := by
  rw [after_merge_count ha]
  constructor
  · intro h
    cases hk : addCounts n m with
    | error e => rw [hk] at h; exact nomatch h
    | ok k =>
      rw [hk] at h
      exact ⟨k, addCounts_eq_ok_iff.1 hk, (Except.ok.inj h).symm⟩
  · rintro ⟨k, hk, rfl⟩
    rw [addCounts_eq_ok_iff.2 hk]
    rfl

/-! ### Buffers within reach -/

/-- The buffers that an aggregate can reach from a new one: a count that is not negative, or any
first value. -/
inductive IsBuffer (a : Aggregate) : Row → Prop
  | count {n : Int32} (ha : a.function = .count) (hn : 0 ≤ n.toInt) : a.IsBuffer ⟨[.integer n]⟩
  | first {v : Value} (ha : a.function = .first) : a.IsBuffer ⟨[v]⟩

theorem IsBuffer.exists_count {b : Row} (hb : a.IsBuffer b) (ha : a.function = .count) :
    ∃ n : Int32, b = ⟨[.integer n]⟩ ∧ 0 ≤ n.toInt := by
  cases hb with
  | count _ hn => exact ⟨_, rfl, hn⟩
  | first hf => exact nomatch ha.symm.trans hf

theorem IsBuffer.exists_first {b : Row} (hb : a.IsBuffer b) (ha : a.function = .first) :
    ∃ v, b = ⟨[v]⟩ := by
  cases hb with
  | count hc _ => exact nomatch ha.symm.trans hc
  | first _ => exact ⟨_, rfl⟩

theorem isBuffer_newBuffer (a : Aggregate) : a.IsBuffer a.newBuffer := by
  unfold newBuffer
  cases ha : a.function with
  | count => exact .count ha (by decide)
  | first => exact .first ha

/-- Folding in a row leads from a buffer within reach to one within reach. -/
theorem IsBuffer.after_update {b c : Row} {row : Row} (hb : a.IsBuffer b)
    (h : after (a.update row) b = .ok c) : a.IsBuffer c := by
  cases ha : a.function with
  | count =>
    obtain ⟨n, rfl, hn⟩ := hb.exists_count ha
    obtain ⟨b, k, -, hk, rfl⟩ := (after_update_count_eq_ok_iff ha).1 h
    exact .count ha (by split at hk <;> omega)
  | first =>
    obtain ⟨v, rfl⟩ := hb.exists_first ha
    obtain ⟨w, -, rfl⟩ := (after_update_first_eq_ok_iff ha).1 h
    exact .first ha

/-- Merging leads from buffers within reach to one within reach. -/
theorem IsBuffer.after_merge {b l c : Row} (hb : a.IsBuffer b) (hl : a.IsBuffer l)
    (h : after (a.merge l) b = .ok c) : a.IsBuffer c := by
  cases ha : a.function with
  | count =>
    obtain ⟨n, rfl, hn⟩ := hb.exists_count ha
    obtain ⟨m, rfl, hm⟩ := hl.exists_count ha
    obtain ⟨k, hk, rfl⟩ := (after_merge_count_eq_ok_iff ha).1 h
    exact .count ha (by omega)
  | first =>
    obtain ⟨v, rfl⟩ := hb.exists_first ha
    obtain ⟨w, rfl⟩ := hl.exists_first ha
    rw [after_merge_first ha] at h
    exact Except.ok.inj h ▸ .first ha

/-! ### Merging and folding commute -/

/-- A new buffer of a later part changes nothing. -/
theorem after_merge_newBuffer {b : Row} (hb : a.IsBuffer b) :
    after (a.merge a.newBuffer) b = .ok b := by
  unfold newBuffer
  cases ha : a.function with
  | count =>
    obtain ⟨n, rfl, -⟩ := hb.exists_count ha
    exact (after_merge_count_eq_ok_iff ha).2 ⟨n, by simp, rfl⟩
  | first =>
    obtain ⟨v, rfl⟩ := hb.exists_first ha
    rw [after_merge_first ha]
    cases v <;> rfl

/-- A row that is folded into the later of two buffers can be folded in after their merge, with
the same result. -/
theorem exists_after_merge {x z z' w' : Row} {row : Row} (hx : a.IsBuffer x) (hz : a.IsBuffer z)
    (hzz : after (a.update row) z = .ok z') (hxz : after (a.merge z') x = .ok w') :
    ∃ w, after (a.merge z) x = .ok w ∧ after (a.update row) w = .ok w' := by
  cases ha : a.function with
  | count =>
    obtain ⟨n, rfl, hn⟩ := hx.exists_count ha
    obtain ⟨m, rfl, hm⟩ := hz.exists_count ha
    obtain ⟨b, k, hb, hk, rfl⟩ := (after_update_count_eq_ok_iff ha).1 hzz
    obtain ⟨l, hl, rfl⟩ := (after_merge_count_eq_ok_iff ha).1 hxz
    -- The sum without the row lies between zero and the sum with it.
    have hmk : m.toInt ≤ k.toInt := by split at hk <;> omega
    have hl' := l.toInt_lt
    obtain ⟨j, hj⟩ := exists_toInt_eq (i := n.toInt + m.toInt) (by omega) (by omega)
    refine ⟨_, (after_merge_count_eq_ok_iff ha).2 ⟨j, hj, rfl⟩,
      (after_update_count_eq_ok_iff ha).2 ⟨b, l, hb, by omega, rfl⟩⟩
  | first =>
    obtain ⟨v, rfl⟩ := hx.exists_first ha
    obtain ⟨u, rfl⟩ := hz.exists_first ha
    obtain ⟨u', hu, rfl⟩ := (after_update_first_eq_ok_iff ha).1 hzz
    rw [after_merge_first ha] at hxz ⊢
    refine ⟨_, rfl, (after_update_first_eq_ok_iff ha).2 ⟨_, ?_, (Except.ok.inj hxz).symm⟩⟩
    cases hv : v.isNull <;> simp_all

end Aggregate

end LogicalQuery
