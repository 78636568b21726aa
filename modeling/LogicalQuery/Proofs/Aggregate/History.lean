import LogicalQuery.Proofs.Aggregate.Buffer

/-!
# Histories of buffers

Rows are folded into a buffer and later buffers are merged into it, in any order and as often as one
likes. Any row can serve as a buffer, and an operation can fail at several points. All that can come
of it is listed once (`Outcome`, `exists_settles_step`): it fails, it keeps the buffer, it adds to the
count in the first field, or it puts a value in the place of a null in the first field. What holds of
all histories follows by induction from what one operation preserves: a value that is found is never
replaced (`get?_afterAll_of_found`), and a count never goes down as long as no buffer with a negative
count is merged in (`exists_count_afterAll`).
-/

namespace LogicalQuery

namespace Aggregate

/-! ### Operations -/

/-- What is done with a buffer. -/
inductive Operation where
  /-- A row is folded in. -/
  | update (row : Row)
  /-- The buffer of a later part is merged in. -/
  | merge (later : Row)

/-- What the operation adds to a count, if it adds to it at all. -/
def Operation.amount : Operation → Except Error Int32
  | .update _ => .ok 1
  | .merge later => counter later

/-- The operation as a step of the aggregate. -/
def step (a : Aggregate) : Operation → BufferM Unit
  | .update row => a.update row
  | .merge later => a.merge later

/-- Whether the operation fails on the buffer, and the buffer after it. -/
def perform (a : Aggregate) (b : Row) (op : Operation) : Except Error Unit × Row :=
  (a.step op).run.run b

/-- The buffer after a sequence of operations, of which any may fail. -/
def afterAll (a : Aggregate) (b : Row) (ops : List Operation) : Row :=
  ops.foldl (fun b op ↦ (a.perform b op).2) b

variable {a : Aggregate} {b c : Row} {v : Value} {m n : Int32} {op : Operation}
  {ops : List Operation} {r : Except Error Row}

/-! ### What an operation can do -/

/-- What can come of an operation on a buffer, which may be any row. -/
inductive Outcome (a : Aggregate) (op : Operation) (b : Row) : Except Error Row → Prop
  | failed (e : Error) : a.Outcome op b (.error e)
  | kept : a.Outcome op b (.ok b)
  | added {m n k : Int32} {c : Row} (ha : a.function = .count) (hn : b.get? 0 = some (.integer n))
      (hm : op.amount = .ok m) (hk : k.toInt = n.toInt + m.toInt)
      (hc : b.set? 0 (.integer k) = some c) : a.Outcome op b (.ok c)
  | found {v : Value} {c : Row} (ha : a.function = .first) (hb : b.get? 0 = some .null)
      (hc : b.set? 0 v = some c) : a.Outcome op b (.ok c)

namespace Outcome

theorem of_addCounts (ha : a.function = .count) (hn : counter b = .ok n) (hm : op.amount = .ok m) :
    a.Outcome op b (addCounts n m >>= fun k ↦ put b (.integer k)) := by
  cases hk : addCounts n m with
  | error e => exact .failed e
  | ok k =>
    rw [ok_bind]
    cases hc : put b (.integer k) with
    | error e => exact .failed e
    | ok c =>
      exact .added ha (counter_eq_ok_iff.1 hn) hm (addCounts_eq_ok_iff.1 hk) (put_eq_ok_iff.1 hc)

theorem of_slot (ha : a.function = .first) (x : Except Error Value) :
    a.Outcome op b (do if (← slot b).isNull then put b (← x) else return b) := by
  cases hb : slot b with
  | error e => exact .failed e
  | ok v =>
    cases v with
    | null =>
      cases x with
      | error e => exact .failed e
      | ok w =>
        show a.Outcome op b (put b w)
        cases hc : put b w with
        | error e => exact .failed e
        | ok c => exact .found ha (slot_eq_ok_iff.1 hb) (put_eq_ok_iff.1 hc)
    | _ => exact .kept

end Outcome

/-- On any buffer, an operation has one of the outcomes. -/
theorem exists_settles_step (a : Aggregate) (b : Row) (op : Operation) :
    ∃ r, Settles (a.step op) b r ∧ a.Outcome op b r := by
  cases ha : a.function with
  | count =>
    cases op with
    | update row =>
      refine ⟨_, settles_update_count ha row b, ?_⟩
      cases a.counted row with
      | error e => exact .failed e
      | ok counted =>
        cases counted with
        | false => exact .kept
        | true =>
          show a.Outcome _ b (counter b >>= fun n ↦ addCounts n 1 >>= fun k ↦ put b (.integer k))
          cases hn : counter b with
          | error e => exact .failed e
          | ok n => exact .of_addCounts ha hn rfl
    | merge later =>
      refine ⟨_, settles_merge_count ha later b, ?_⟩
      cases hn : counter b with
      | error e => exact .failed e
      | ok n =>
        rw [ok_bind]
        cases hm : counter later with
        | error e => exact .failed e
        | ok m => exact .of_addCounts ha hn hm
  | first =>
    cases op with
    | update row => exact ⟨_, settles_update_first ha row b, .of_slot ha (a.child.eval row)⟩
    | merge later => exact ⟨_, settles_merge_first ha later b, .of_slot ha (slot later)⟩

/-- An operation that fails leaves the buffer as it was, and one that does not fail has one of the
other outcomes. -/
theorem perform_cases (a : Aggregate) (b : Row) (op : Operation) :
    (∃ e, a.perform b op = (.error e, b)) ∨
      ∃ c, a.perform b op = (.ok (), c) ∧ a.Outcome op b (.ok c) := by
  obtain ⟨r, hr, hout⟩ := exists_settles_step a b op
  cases r with
  | error e => exact .inl ⟨e, hr⟩
  | ok c => exact .inr ⟨c, hr, hout⟩

theorem Outcome.size_eq (h : a.Outcome op b (.ok c)) : c.size = b.size := by
  cases h with
  | kept => rfl
  | added _ _ _ _ hc => exact Row.size_set? hc
  | found _ _ hc => exact Row.size_set? hc

theorem Outcome.get?_eq (h : a.Outcome op b (.ok c)) {i : Nat} (hi : i ≠ 0) :
    c.get? i = b.get? i := by
  cases h with
  | kept => rfl
  | added _ _ _ _ hc => rw [Row.get?_set? hc, if_neg hi.symm]
  | found _ _ hc => rw [Row.get?_set? hc, if_neg hi.symm]

/-! ### Values that are found -/

theorem get?_perform_of_found (ha : a.function = .first) (hb : b.get? 0 = some v) (hv : v ≠ .null)
    (op : Operation) : (a.perform b op).2.get? 0 = some v := by
  obtain ⟨e, he⟩ | ⟨c, hc, hout⟩ := perform_cases a b op
  · rwa [he]
  · rw [hc]
    cases hout with
    | kept => exact hb
    | added hcount => exact nomatch ha.symm.trans hcount
    | found _ hnull => exact absurd (Option.some.inj (hb.symm.trans hnull)) hv

/-- A value that is found stays. -/
theorem get?_afterAll_of_found (ha : a.function = .first) (hb : b.get? 0 = some v) (hv : v ≠ .null)
    (ops : List Operation) : (a.afterAll b ops).get? 0 = some v := by
  induction ops generalizing b with
  | nil => exact hb
  | cons op ops ih => exact ih (get?_perform_of_found ha hb hv op)

/-! ### Counts -/

/-- The row has a count in its first field that is at least `i`. -/
def CountsFrom (i : Int) (b : Row) : Prop :=
  ∃ n : Int32, b.get? 0 = some (.integer n) ∧ i ≤ n.toInt

theorem countsFrom_perform (ha : a.function = .count) (hb : b.get? 0 = some (.integer n))
    (hop : ∀ later, op = .merge later → CountsFrom 0 later) :
    CountsFrom n.toInt (a.perform b op).2 := by
  obtain ⟨e, he⟩ | ⟨c, hc, hout⟩ := perform_cases a b op
  · rw [he]
    exact ⟨n, hb, Int.le_refl _⟩
  · rw [hc]
    cases hout with
    | kept => exact ⟨n, hb, Int.le_refl _⟩
    | found hfirst => exact nomatch ha.symm.trans hfirst
    | @added m n' k _ _ hn hm hk hset =>
      obtain rfl := Value.integer.inj (Option.some.inj (hb.symm.trans hn))
      have hm0 : 0 ≤ m.toInt := by
        cases op with
        | update row => exact Except.ok.inj hm ▸ (by decide)
        | merge later =>
          obtain ⟨l, hl, hl0⟩ := hop later rfl
          obtain rfl := Value.integer.inj (Option.some.inj (hl.symm.trans (counter_eq_ok_iff.1 hm)))
          exact hl0
      exact ⟨k, by rw [Row.get?_set? hset, if_pos rfl], by omega⟩

/-- A count does not go down as long as no negative count is merged in. -/
theorem countsFrom_afterAll (ha : a.function = .count) (hb : b.get? 0 = some (.integer n))
    (hops : ∀ later, .merge later ∈ ops → CountsFrom 0 later) :
    CountsFrom n.toInt (a.afterAll b ops) := by
  induction ops generalizing b n with
  | nil => exact ⟨n, hb, Int.le_refl _⟩
  | cons op ops ih =>
    obtain ⟨k, hk, hnk⟩ := @countsFrom_perform a b n op ha hb
      fun later hlater ↦ hops later (hlater ▸ List.mem_cons_self)
    obtain ⟨l, hl, hkl⟩ := ih hk fun later hlater ↦ hops later (List.mem_cons_of_mem op hlater)
    exact ⟨l, hl, Int.le_trans hnk hkl⟩

/-- The buffers of counts: what comes of a new buffer when no others than such buffers are merged
in. -/
inductive IsTally : Row → Prop
  | afterAll {a : Aggregate} (ha : a.function = .count) {ops : List Operation}
      (hops : ∀ later, .merge later ∈ ops → IsTally later) : IsTally (a.afterAll a.newBuffer ops)

theorem get?_newBuffer_of_count (ha : a.function = .count) :
    a.newBuffer.get? 0 = some (.integer 0) := by
  rw [newBuffer, ha]
  rfl

theorem IsTally.countsFrom (hb : IsTally b) : CountsFrom 0 b := by
  induction hb with
  | afterAll ha _ ih => exact countsFrom_afterAll ha (get?_newBuffer_of_count ha) ih

theorem afterAll_append (a : Aggregate) (b : Row) (ops ops' : List Operation) :
    a.afterAll b (ops ++ ops') = a.afterAll (a.afterAll b ops) ops' :=
  List.foldl_append

/-! ### All histories -/

/-- **Operations are atomic, and touch the first field only.** On any row as a buffer, an operation
that fails leaves the buffer as it was, and one that does not fail leaves the other fields and their
number as they were. In any history, in which operations may fail, a first value that is found is
never replaced, and a count that began with a new buffer is never negative and never goes down, as
long as no other than such buffers are merged in. -/
theorem buffer_history (a : Aggregate) :
    (∀ b op e c, a.perform b op = (.error e, c) → c = b) ∧
    (∀ b op c, a.perform b op = (.ok (), c) →
      c.size = b.size ∧ ∀ i, i ≠ 0 → c.get? i = b.get? i) ∧
    (a.function = .first → ∀ b v, b.get? 0 = some v → v ≠ .null →
      ∀ ops, (a.afterAll b ops).get? 0 = some v) ∧
    (a.function = .count → ∀ earlier later,
      (∀ part, .merge part ∈ earlier ++ later → IsTally part) →
        ∃ m n : Int32, (a.afterAll a.newBuffer earlier).get? 0 = some (.integer m) ∧
          (a.afterAll a.newBuffer (earlier ++ later)).get? 0 = some (.integer n) ∧
          0 ≤ m.toInt ∧ m.toInt ≤ n.toInt ∧ n.toInt ≤ 2 ^ 31 - 1) := by
  refine ⟨fun b op e c h ↦ ?_, fun b op c h ↦ ?_,
    fun ha b v hb hv ops ↦ get?_afterAll_of_found ha hb hv ops, fun ha earlier later hparts ↦ ?_⟩
  · obtain ⟨e', he⟩ | ⟨c', hc, -⟩ := perform_cases a b op
    · exact (congrArg Prod.snd (he.symm.trans h)).symm
    · exact nomatch congrArg Prod.fst (hc.symm.trans h)
  · obtain ⟨e', he⟩ | ⟨c', hc, hout⟩ := perform_cases a b op
    · exact nomatch congrArg Prod.fst (he.symm.trans h)
    · obtain rfl : c' = c := congrArg Prod.snd (hc.symm.trans h)
      exact ⟨hout.size_eq, fun i hi ↦ hout.get?_eq hi⟩
  · obtain ⟨m, hm, hm0⟩ := countsFrom_afterAll ha (get?_newBuffer_of_count ha)
      fun part hpart ↦ (hparts part (List.mem_append_left _ hpart)).countsFrom
    obtain ⟨n, hn, hmn⟩ := countsFrom_afterAll ha hm
      fun part hpart ↦ (hparts part (List.mem_append_right _ hpart)).countsFrom
    have hlt := n.toInt_lt
    rw [afterAll_append]
    exact ⟨m, n, hm, hn, hm0, hmn, by omega⟩

/-- Seconds are counted and the first of them is looked for, on buffers of other aggregates too. On a
row without fields both fail. -/
theorem buffer_history_seconds :
    let seconds : Expr := .field ⟨0, "events", "seconds", .bigInteger, false⟩
    let count : Aggregate := ⟨.count, seconds⟩
    let first : Aggregate := ⟨.first, seconds⟩
    let earlier : List Operation := [.update ⟨[.bigInteger 60]⟩, .update ⟨[]⟩]
    let later : List Operation := [.merge count.newBuffer, .update ⟨[.null]⟩]
    (∃ e c, count.perform ⟨[.integer 7, .null]⟩ (.update ⟨[]⟩) = (.error e, c) ∧
      c = ⟨[.integer 7, .null]⟩) ∧
    (∃ c, first.perform ⟨[.null, .integer 7]⟩ (.update ⟨[.bigInteger 60]⟩) = (.ok (), c) ∧
      c.size = 2 ∧ c.get? 1 = some (.integer 7)) ∧
    (first.afterAll ⟨[.integer 7]⟩ (earlier ++ later)).get? 0 = some (.integer 7) ∧
    ∃ m n : Int32, (count.afterAll count.newBuffer earlier).get? 0 = some (.integer m) ∧
      (count.afterAll count.newBuffer (earlier ++ later)).get? 0 = some (.integer n) ∧
      0 ≤ m.toInt ∧ m.toInt ≤ n.toInt ∧ n.toInt ≤ 2 ^ 31 - 1 := by
  intro seconds count first earlier later
  obtain ⟨hfailed, -, -, hcount⟩ := buffer_history count
  obtain ⟨-, hkept, hfirst, -⟩ := buffer_history first
  refine ⟨⟨_, _, rfl, ?_⟩, ⟨_, rfl, ?_⟩, ?_, ?_⟩
  · exact hfailed ⟨[.integer 7, .null]⟩ (.update ⟨[]⟩) _ _ rfl
  · obtain ⟨hsize, hfields⟩ := hkept ⟨[.null, .integer 7]⟩ (.update ⟨[.bigInteger 60]⟩) _ rfl
    exact ⟨hsize, hfields 1 Nat.one_ne_zero⟩
  · exact hfirst rfl ⟨[.integer 7]⟩ (.integer 7) rfl nofun (earlier ++ later)
  · refine hcount rfl earlier later fun part hpart ↦ ?_
    simp only [earlier, later, List.cons_append, List.nil_append, List.mem_cons, reduceCtorEq,
      List.not_mem_nil, Operation.merge.injEq, false_or, or_false] at hpart
    -- A new buffer is what comes of it by no operations.
    exact hpart ▸ @IsTally.afterAll count rfl [] nofun

end Aggregate

end LogicalQuery
