import LogicalQuery.Proofs.Aggregate.Buffer

/-!
# Folding the rows of a group

The buffer after all rows of a group in closed form: under `count` the number of rows that are
counted, provided that every row can be evaluated and the number is an integer of 32 bits
(`fold_count_eq_ok_iff`), and under `first` the first value that is not null, where the rows after
it are not evaluated (`fold_first`).
-/

namespace LogicalQuery

namespace Aggregate

variable {a : Aggregate}

/-- Folding rows into a given buffer. -/
def foldFrom (a : Aggregate) (b : Row) (rows : List Row) : Except Error Row :=
  rows.foldlM (fun buffer row ↦ after (a.update row) buffer) b

theorem fold_eq_foldFrom (a : Aggregate) (rows : List Row) :
    a.fold rows = a.foldFrom a.newBuffer rows :=
  rfl

@[simp]
theorem foldFrom_nil (a : Aggregate) (b : Row) : a.foldFrom b [] = .ok b := rfl

theorem foldFrom_cons (a : Aggregate) (b row : Row) (rows : List Row) :
    a.foldFrom b (row :: rows) = after (a.update row) b >>= fun c ↦ a.foldFrom c rows :=
  rfl

theorem foldFrom_append (a : Aggregate) (b : Row) (rows rows' : List Row) :
    a.foldFrom b (rows ++ rows') = a.foldFrom b rows >>= fun c ↦ a.foldFrom c rows' :=
  List.foldlM_append

/-- Folding fails exactly if the step of some row fails on the buffer of the rows before it. -/
theorem foldFrom_eq_error_iff {b : Row} {rows : List Row} {e : Error} :
    a.foldFrom b rows = .error e ↔
      ∃ before row later c, rows = before ++ row :: later ∧ a.foldFrom b before = .ok c ∧
        after (a.update row) c = .error e := by
  induction rows generalizing b with
  | nil => simp
  | cons row rows ih =>
    rw [foldFrom_cons, bind_eq_error_iff]
    constructor
    · rintro (h | ⟨d, hd, h⟩)
      · exact ⟨[], row, rows, b, rfl, rfl, h⟩
      · obtain ⟨before, r, later, c, rfl, hc, hr⟩ := ih.1 h
        refine ⟨row :: before, r, later, c, rfl, ?_, hr⟩
        rw [foldFrom_cons, hd]
        exact hc
    · rintro ⟨before, r, later, c, hsplit, hc, hr⟩
      cases before with
      | nil =>
        obtain ⟨rfl, -⟩ := List.cons.inj hsplit
        obtain rfl := Except.ok.inj hc
        exact .inl hr
      | cons r' before =>
        obtain ⟨rfl, rfl⟩ := List.cons.inj hsplit
        rw [foldFrom_cons, bind_eq_ok_iff] at hc
        obtain ⟨d, hd, hc⟩ := hc
        exact .inr ⟨d, hd, ih.2 ⟨before, r, later, c, rfl, hc, hr⟩⟩

/-- Folding rows leads from a buffer within reach to one within reach. -/
theorem IsBuffer.foldFrom {b c : Row} {rows : List Row} (hb : a.IsBuffer b)
    (h : a.foldFrom b rows = .ok c) : a.IsBuffer c := by
  induction rows generalizing b with
  | nil => exact Except.ok.inj h ▸ hb
  | cons row rows ih =>
    rw [foldFrom_cons] at h
    obtain ⟨d, hd, hc⟩ := bind_eq_ok_iff.1 h
    exact ih (hb.after_update hd) hc

theorem isBuffer_of_fold {c : Row} {rows : List Row} (h : a.fold rows = .ok c) : a.IsBuffer c :=
  a.isBuffer_newBuffer.foldFrom h

/-- Every buffer within reach holds a result. -/
theorem IsBuffer.exists_result {b : Row} (hb : a.IsBuffer b) : ∃ v, a.result b = .ok v := by
  unfold result
  cases ha : a.function with
  | count =>
    obtain ⟨n, rfl, -⟩ := hb.exists_count ha
    exact ⟨_, rfl⟩
  | first =>
    obtain ⟨v, rfl⟩ := hb.exists_first ha
    exact ⟨_, rfl⟩

/-- The aggregate of a group fails only while its rows are folded. -/
theorem accumulate_eq_error_iff {rows : List Row} {e : Error} :
    a.accumulate rows = .error e ↔ a.fold rows = .error e := by
  rw [accumulate, bind_eq_error_iff]
  refine or_iff_left ?_
  rintro ⟨b, hb, he⟩
  obtain ⟨v, hv⟩ := (isBuffer_of_fold hb).exists_result
  exact nomatch hv.symm.trans he

/-! ### The number of rows -/

/-- Whether a row can be evaluated and is counted. -/
def counts (a : Aggregate) (row : Row) : Bool :=
  match a.counted row with
  | .ok b => b
  | .error _ => false

theorem counts_of_counted {row : Row} {b : Bool} (h : a.counted row = .ok b) :
    a.counts row = b := by
  rw [counts, h]

/-- A row that is counted adds one to the number of rows that are. -/
theorem countP_counts_cons {row : Row} {b : Bool} (h : a.counted row = .ok b) (rows : List Row) :
    ((row :: rows).countP a.counts : Int) = rows.countP a.counts + if b then 1 else 0 := by
  rw [List.countP_cons, counts_of_counted h]
  split <;> rfl

/-- Folding succeeds from a count exactly when every row can be evaluated and the count stays
within the integers of 32 bits, and it adds the number of rows that are counted. -/
theorem foldFrom_count_eq_ok_iff (ha : a.function = .count) {n : Int32} (hn : 0 ≤ n.toInt)
    {rows : List Row} {c : Row} :
    a.foldFrom ⟨[.integer n]⟩ rows = .ok c ↔
      (∀ row ∈ rows, ∃ b, a.counted row = .ok b) ∧
        ∃ k : Int32, k.toInt = n.toInt + rows.countP a.counts ∧ c = ⟨[.integer k]⟩ := by
  induction rows generalizing n with
  | nil =>
    simp only [foldFrom_nil, Except.ok.injEq, List.countP_nil]
    constructor
    · rintro rfl
      exact ⟨by simp, n, by simp, rfl⟩
    · rintro ⟨-, k, hk, rfl⟩
      rw [Int32.toInt_inj.1 (show k.toInt = n.toInt by omega)]
  | cons row rows ih =>
    rw [foldFrom_cons, bind_eq_ok_iff, List.forall_mem_cons]
    have hone (b : Bool) : 0 ≤ if b then (1 : Int) else 0 := by split <;> decide
    constructor
    · rintro ⟨d, hd, hc⟩
      obtain ⟨b, k, hb, hk, rfl⟩ := (after_update_count_eq_ok_iff ha).1 hd
      have hcount := countP_counts_cons hb rows
      have hb0 := hone b
      obtain ⟨hrows, l, hl, rfl⟩ := (ih (by omega)).1 hc
      exact ⟨⟨⟨b, hb⟩, hrows⟩, l, by omega, rfl⟩
    · rintro ⟨⟨⟨b, hb⟩, hrows⟩, l, hl, rfl⟩
      have hcount := countP_counts_cons hb rows
      have hb0 := hone b
      -- The counts on the way are between the first one and the last one, which is in range.
      have hlt := l.toInt_lt
      obtain ⟨k, hk⟩ := exists_toInt_eq (i := n.toInt + if b then 1 else 0) (by omega) (by omega)
      exact ⟨_, (after_update_count_eq_ok_iff ha).2 ⟨b, k, hb, hk, rfl⟩,
        (ih (by omega)).2 ⟨hrows, l, by omega, rfl⟩⟩

/-- The count of a group is the number of rows that are counted. -/
theorem fold_count_eq_ok_iff (ha : a.function = .count) {rows : List Row} {c : Row} :
    a.fold rows = .ok c ↔
      (∀ row ∈ rows, ∃ b, a.counted row = .ok b) ∧
        ∃ k : Int32, k.toInt = rows.countP a.counts ∧ c = ⟨[.integer k]⟩ := by
  have hnew : a.newBuffer = ⟨[.integer 0]⟩ := by rw [newBuffer, ha]
  rw [fold_eq_foldFrom, hnew, foldFrom_count_eq_ok_iff ha (by decide)]
  simp

/-- Counting a group fails on the first row that cannot be evaluated, or that is counted when the
count is the greatest one already. -/
theorem fold_count_eq_error_iff (ha : a.function = .count) {rows : List Row} {e : Error} :
    a.fold rows = .error e ↔
      ∃ before row later, rows = before ++ row :: later ∧
        (∀ r ∈ before, ∃ b, a.counted r = .ok b) ∧ before.countP a.counts ≤ 2 ^ 31 - 1 ∧
        (a.counted row = .error e ∨ a.counted row = .ok true ∧
          before.countP a.counts = 2 ^ 31 - 1 ∧ e = .countOverflow Int32.maxValue 1) := by
  rw [fold_eq_foldFrom, foldFrom_eq_error_iff]
  simp only [← fold_eq_foldFrom, fold_count_eq_ok_iff ha]
  constructor
  · rintro ⟨before, row, later, c, hsplit, ⟨hbefore, k, hk, rfl⟩, hrow⟩
    have hlt := k.toInt_lt
    refine ⟨before, row, later, hsplit, hbefore, by omega, ?_⟩
    refine ((after_update_count_eq_error_iff ha).1 hrow).imp_right fun ⟨hcounted, hmax, he⟩ ↦ ?_
    rw [hmax, Int32.toInt_maxValue] at hk
    exact ⟨hcounted, by omega, he⟩
  · rintro ⟨before, row, later, hsplit, hbefore, hle, hrow⟩
    obtain ⟨k, hk⟩ := exists_toInt_eq (i := before.countP a.counts) (by omega) (by omega)
    refine ⟨before, row, later, _, hsplit, ⟨hbefore, k, hk, rfl⟩, ?_⟩
    refine (after_update_count_eq_error_iff ha).2 <| hrow.imp_right fun ⟨hcounted, hmax, he⟩ ↦ ?_
    refine ⟨hcounted, ?_, he⟩
    rw [← Int32.toInt_inj, hk, hmax, Int32.toInt_maxValue]
    rfl

end Aggregate

/-! ### The first value -/

/-- The value of an expression on the first row where it is not null, or null if there is none.
The rows after that row are not evaluated. -/
def Expr.firstValue (e : Expr) : List Row → Except Error Value
  | [] => .ok .null
  | row :: rows => do
    let v ← e.eval row
    if v.isNull then e.firstValue rows else return v

/-- Looking for a first value fails exactly when the expression fails on a row before which it is
null on all rows. -/
theorem Expr.firstValue_eq_error_iff {e : Expr} {rows : List Row} {err : Error} :
    e.firstValue rows = .error err ↔
      ∃ before row later, rows = before ++ row :: later ∧
        (∀ r ∈ before, e.eval r = .ok .null) ∧ e.eval row = .error err := by
  induction rows with
  | nil => simp [firstValue]
  | cons row rows ih =>
    rw [firstValue, bind_eq_error_iff]
    constructor
    · rintro (h | ⟨v, hv, h⟩)
      · exact ⟨[], row, rows, rfl, by simp, h⟩
      · cases v with
        | null =>
          obtain ⟨before, r, later, rfl, hnull, hr⟩ := ih.1 h
          exact ⟨row :: before, r, later, rfl, by simpa [hv] using hnull, hr⟩
        | _ => exact nomatch h
    · rintro ⟨before, r, later, hsplit, hnull, hr⟩
      cases before with
      | nil =>
        obtain ⟨rfl, -⟩ := List.cons.inj hsplit
        exact .inl hr
      | cons r' before =>
        obtain ⟨rfl, rfl⟩ := List.cons.inj hsplit
        rw [List.forall_mem_cons] at hnull
        exact .inr ⟨.null, hnull.1, ih.2 ⟨before, r, later, rfl, hnull.2, hr⟩⟩

/-- Looking for a first value gives null exactly if the expression is null on all rows, and another
value exactly if that is its value on a row before which it is null on all rows. -/
theorem Expr.firstValue_eq_ok_iff {e : Expr} {rows : List Row} {v : Value} :
    e.firstValue rows = .ok v ↔
      (v = .null ∧ ∀ r ∈ rows, e.eval r = .ok .null) ∨
        (v ≠ .null ∧ ∃ before row later, rows = before ++ row :: later ∧
          (∀ r ∈ before, e.eval r = .ok .null) ∧ e.eval row = .ok v) := by
  induction rows with
  | nil => simp [firstValue, eq_comm]
  | cons row rows ih =>
    rw [firstValue, bind_eq_ok_iff, List.forall_mem_cons]
    constructor
    · rintro ⟨w, hw, h⟩
      cases w with
      | null =>
        refine (ih.1 h).imp (fun ⟨hv, hnull⟩ ↦ ⟨hv, hw, hnull⟩) ?_
        rintro ⟨hv, before, r, later, rfl, hnull, hr⟩
        exact ⟨hv, row :: before, r, later, rfl, List.forall_mem_cons.2 ⟨hw, hnull⟩, hr⟩
      | _ =>
        obtain rfl := Except.ok.inj h
        exact .inr ⟨nofun, [], row, rows, rfl, nofun, hw⟩
    · rintro (⟨hv, hnull, hnulls⟩ | ⟨hv, before, r, later, hsplit, hnull, hr⟩)
      · exact ⟨.null, hnull, ih.2 (.inl ⟨hv, hnulls⟩)⟩
      · cases before with
        | nil =>
          obtain ⟨rfl, -⟩ := List.cons.inj hsplit
          refine ⟨v, hr, ?_⟩
          cases v with
          | null => exact absurd rfl hv
          | _ => rfl
        | cons r' before =>
          obtain ⟨rfl, rfl⟩ := List.cons.inj hsplit
          rw [List.forall_mem_cons] at hnull
          exact ⟨.null, hnull.1, ih.2 (.inr ⟨hv, before, r, later, rfl, hnull.2, hr⟩)⟩

namespace Aggregate

variable {a : Aggregate}

/-- Folding from a first value looks for the first value of the rows only if there is none yet. -/
theorem foldFrom_first (ha : a.function = .first) (v : Value) (rows : List Row) :
    a.foldFrom ⟨[v]⟩ rows =
      if v.isNull then (a.child.firstValue rows).map fun w ↦ ⟨[w]⟩ else .ok ⟨[v]⟩ := by
  induction rows generalizing v with
  | nil => cases v <;> rfl
  | cons row rows ih =>
    rw [foldFrom_cons, after_update_first ha, Expr.firstValue]
    cases hv : v.isNull with
    | false => simpa [hv] using ih v
    | true =>
      cases a.child.eval row with
      | error e => rfl
      | ok w =>
        refine (ih w).trans ?_
        cases hw : w.isNull <;> simp [hw, Except.map, pure, Except.pure]

/-- The buffer of a group under `first` holds the first value of its rows. -/
theorem fold_first (ha : a.function = .first) (rows : List Row) :
    a.fold rows = (a.child.firstValue rows).map fun w ↦ ⟨[w]⟩ := by
  have hnew : a.newBuffer = ⟨[.null]⟩ := by rw [newBuffer, ha]
  rw [fold_eq_foldFrom, hnew, foldFrom_first ha]
  rfl

theorem accumulate_first (ha : a.function = .first) (rows : List Row) :
    a.accumulate rows = a.child.firstValue rows := by
  rw [accumulate, fold_first ha]
  cases a.child.firstValue rows with
  | error _ => rfl
  | ok v =>
    show a.result ⟨[v]⟩ = .ok v
    rw [result, ha]
    rfl

end Aggregate

end LogicalQuery
