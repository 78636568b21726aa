import LogicalQuery.Cast.Standard
import LogicalQuery.Proofs.Aggregate.Fold

/-!
# Groups in parts

A merge tree says how the buffers of the parts of a group are merged: which rows make up each
part, where new buffers are put in between, and in which order the merges are done, where an
earlier part always stays on the left.

* Every merge tree is sound: if all its steps succeed, then folding all rows one after the other
  succeeds as well and leads to the same buffer (`fold_of_bufferOf`).
* Conversely, a group whose rows can be folded one after the other has a buffer by a merge tree
  exactly when each part can be folded by itself (`exists_bufferOf_iff`). Under `count` that is
  always so, but under `first` a part may evaluate rows that come after the first value of the
  group.
-/

namespace LogicalQuery

/-- A way to merge the buffers of the parts of a group. -/
inductive MergeTree where
  /-- The buffer of a part, folded from a new one. -/
  | piece (rows : List Row)
  /-- A new buffer without rows. -/
  | fresh
  /-- The buffer of an earlier part merged with that of a later part. -/
  | merge (earlier later : MergeTree)

namespace MergeTree

/-- The parts of the group, in their order. -/
def pieces : MergeTree → List (List Row)
  | piece rows => [rows]
  | fresh => []
  | merge t u => t.pieces ++ u.pieces

/-- All rows of the group. -/
def rows (t : MergeTree) : List Row := t.pieces.flatten

@[simp]
theorem rows_piece (rows : List Row) : (piece rows).rows = rows := List.append_nil rows

@[simp]
theorem rows_merge (t u : MergeTree) : (merge t u).rows = t.rows ++ u.rows := List.flatten_append

/-- The parts of a group merged one after the other into the buffer of a tree. -/
def inOrder (t : MergeTree) (parts : List (List Row)) : MergeTree :=
  parts.foldl (fun t part ↦ merge t (piece part)) t

theorem pieces_inOrder (t : MergeTree) (parts : List (List Row)) :
    (inOrder t parts).pieces = t.pieces ++ parts := by
  induction parts generalizing t with
  | nil => exact (List.append_nil _).symm
  | cons part parts ih =>
    show (inOrder (merge t (piece part)) parts).pieces = _
    rw [ih]
    exact List.append_assoc _ _ _

end MergeTree

namespace Aggregate

variable {a : Aggregate}

/-- The buffer of a group by a merge tree, or the first error. -/
def bufferOf (a : Aggregate) : MergeTree → Except Error Row
  | .piece rows => a.fold rows
  | .fresh => .ok a.newBuffer
  | .merge t u => do
    let buffer ← a.bufferOf t
    let later ← a.bufferOf u
    after (a.merge later) buffer

theorem bufferOf_merge_eq_ok_iff {t u : MergeTree} {b : Row} :
    a.bufferOf (.merge t u) = .ok b ↔
      ∃ x y, a.bufferOf t = .ok x ∧ a.bufferOf u = .ok y ∧ after (a.merge y) x = .ok b := by
  rw [bufferOf, bind_eq_ok_iff]
  simp only [bind_eq_ok_iff]
  constructor
  · rintro ⟨x, hx, y, hy, hb⟩
    exact ⟨x, y, hx, hy, hb⟩
  · rintro ⟨x, y, hx, hy, hb⟩
    exact ⟨x, hx, y, hy, hb⟩

theorem isBuffer_of_bufferOf {t : MergeTree} {b : Row} (h : a.bufferOf t = .ok b) :
    a.IsBuffer b := by
  induction t generalizing b with
  | piece rows => exact isBuffer_of_fold h
  | fresh => exact Except.ok.inj h ▸ a.isBuffer_newBuffer
  | merge t u iht ihu =>
    obtain ⟨x, y, hx, hy, hb⟩ := bufferOf_merge_eq_ok_iff.1 h
    exact (iht hx).after_merge (ihu hy) hb

/-! ### From parts to the whole -/

/-- Rows that are folded into the later of two buffers can be folded in after their merge, with
the same result: the step of `exists_after_merge`, row by row. -/
theorem exists_foldFrom_after_merge {x z y b : Row} {rows : List Row} (hx : a.IsBuffer x)
    (hz : a.IsBuffer z) (hy : a.foldFrom z rows = .ok y) (hb : after (a.merge y) x = .ok b) :
    ∃ w, after (a.merge z) x = .ok w ∧ a.foldFrom w rows = .ok b := by
  induction rows generalizing z with
  | nil =>
    obtain rfl := Except.ok.inj hy
    exact ⟨b, hb, rfl⟩
  | cons row rows ih =>
    rw [foldFrom_cons] at hy
    obtain ⟨z', hz', hy'⟩ := bind_eq_ok_iff.1 hy
    obtain ⟨w', hw', hb'⟩ := ih (hz.after_update hz') hy'
    obtain ⟨w, hw, hww⟩ := exists_after_merge hx hz hz' hw'
    refine ⟨w, hw, ?_⟩
    rw [foldFrom_cons, hww]
    exact hb'

/-- Every merge tree is sound: its buffer is that of all rows folded one after the other. -/
theorem fold_of_bufferOf {t : MergeTree} {b : Row} (h : a.bufferOf t = .ok b) :
    a.fold t.rows = .ok b := by
  induction t generalizing b with
  | piece rows => rwa [MergeTree.rows_piece]
  | fresh => exact h
  | merge t u iht ihu =>
    obtain ⟨x, y, hx, hy, hb⟩ := bufferOf_merge_eq_ok_iff.1 h
    have hxb := isBuffer_of_bufferOf hx
    obtain ⟨w, hw, hwb⟩ :=
      exists_foldFrom_after_merge hxb a.isBuffer_newBuffer (ihu hy) hb
    -- The later part starts from a new buffer, which the merge leaves out.
    obtain rfl : x = w := Except.ok.inj ((after_merge_newBuffer hxb).symm.trans hw)
    rw [MergeTree.rows_merge, fold_eq_foldFrom, foldFrom_append, ← fold_eq_foldFrom, iht hx]
    exact hwb

/-! ### From the whole to parts -/

theorem exists_fold_of_mem_pieces {t : MergeTree} {b : Row} (h : a.bufferOf t = .ok b)
    {part : List Row} (hpart : part ∈ t.pieces) : ∃ c, a.fold part = .ok c := by
  induction t generalizing b with
  | piece rows =>
    obtain rfl := List.mem_singleton.1 hpart
    exact ⟨b, h⟩
  | fresh => exact absurd hpart (List.not_mem_nil)
  | merge t u iht ihu =>
    obtain ⟨x, y, hx, hy, -⟩ := bufferOf_merge_eq_ok_iff.1 h
    rcases List.mem_append.1 hpart with ht | hu
    · exact iht hx ht
    · exact ihu hy hu

/-- Under `count` a group whose rows can be folded one after the other has a buffer by every merge
tree. -/
theorem exists_bufferOf_of_count (ha : a.function = .count) {t : MergeTree} {c : Row}
    (h : a.fold t.rows = .ok c) : ∃ b, a.bufferOf t = .ok b := by
  induction t generalizing c with
  | piece rows => exact ⟨c, by rwa [MergeTree.rows_piece] at h⟩
  | fresh => exact ⟨_, rfl⟩
  | merge t u iht ihu =>
    rw [MergeTree.rows_merge] at h
    obtain ⟨hrows, k, hk, rfl⟩ := (fold_count_eq_ok_iff ha).1 h
    rw [List.countP_append] at hk
    have hk' := k.toInt_lt
    obtain ⟨m, hm⟩ := exists_toInt_eq (i := t.rows.countP a.counts) (by omega) (by omega)
    obtain ⟨n, hn⟩ := exists_toInt_eq (i := u.rows.countP a.counts) (by omega) (by omega)
    have ht := (fold_count_eq_ok_iff ha).2
      ⟨fun row hr ↦ hrows row (List.mem_append_left _ hr), m, hm, rfl⟩
    have hu := (fold_count_eq_ok_iff ha).2
      ⟨fun row hr ↦ hrows row (List.mem_append_right _ hr), n, hn, rfl⟩
    obtain ⟨x, hx⟩ := iht ht
    obtain ⟨y, hy⟩ := ihu hu
    -- Both trees are sound, so that their buffers hold the counts `m` and `n`.
    obtain rfl := Except.ok.inj (ht.symm.trans (fold_of_bufferOf hx))
    obtain rfl := Except.ok.inj (hu.symm.trans (fold_of_bufferOf hy))
    exact ⟨_, bufferOf_merge_eq_ok_iff.2 ⟨_, _, hx, hy,
      (after_merge_count_eq_ok_iff ha).2 ⟨k, by omega, rfl⟩⟩⟩

/-- Under `first` a merge never fails, so that a group has a buffer by every merge tree whose parts
can be folded. -/
theorem exists_bufferOf_of_first (ha : a.function = .first) {t : MergeTree}
    (h : ∀ part ∈ t.pieces, ∃ c, a.fold part = .ok c) : ∃ b, a.bufferOf t = .ok b := by
  induction t with
  | piece rows => exact h rows (List.mem_singleton.2 rfl)
  | fresh => exact ⟨_, rfl⟩
  | merge t u iht ihu =>
    obtain ⟨x, hx⟩ := iht fun part hp ↦ h part (List.mem_append_left _ hp)
    obtain ⟨y, hy⟩ := ihu fun part hp ↦ h part (List.mem_append_right _ hp)
    obtain ⟨v, rfl⟩ := (isBuffer_of_bufferOf hx).exists_first ha
    obtain ⟨w, rfl⟩ := (isBuffer_of_bufferOf hy).exists_first ha
    exact ⟨_, bufferOf_merge_eq_ok_iff.2 ⟨_, _, hx, hy, after_merge_first ha v w⟩⟩

/-- A group whose rows can be folded one after the other has a buffer by a merge tree exactly when
each part can be folded by itself. -/
theorem exists_bufferOf_iff {t : MergeTree} {c : Row} (h : a.fold t.rows = .ok c) :
    (∃ b, a.bufferOf t = .ok b) ↔ ∀ part ∈ t.pieces, ∃ c, a.fold part = .ok c := by
  constructor
  · rintro ⟨b, hb⟩ part hpart
    exact exists_fold_of_mem_pieces hb hpart
  · intro hparts
    cases ha : a.function with
    | count => exact exists_bufferOf_of_count ha h
    | first => exact exists_bufferOf_of_first ha hparts

/-! ### Parts of one size -/

/-- Merging buffers in their order is merging along a tree. -/
theorem bufferOf_inOrder_eq_ok_iff {t : MergeTree} {parts : List (List Row)} {c : Row} :
    a.bufferOf (t.inOrder parts) = .ok c ↔
      ∃ b buffers, a.bufferOf t = .ok b ∧ parts.mapM a.fold = .ok buffers ∧
        buffers.foldlM (fun buffer later ↦ after (a.merge later) buffer) b = .ok c := by
  induction parts generalizing t with
  | nil =>
    constructor
    · exact fun h ↦ ⟨c, [], h, rfl, rfl⟩
    · rintro ⟨b, buffers, hb, hbuffers, hc⟩
      obtain rfl := Except.ok.inj hbuffers
      obtain rfl := Except.ok.inj hc
      exact hb
  | cons part parts ih =>
    show a.bufferOf ((t.merge (.piece part)).inOrder parts) = _ ↔ _
    rw [ih]
    simp only [List.mapM_cons, bind_eq_ok_iff, pure_eq_ok, Except.ok.injEq]
    constructor
    · rintro ⟨b, buffers, hb, hbuffers, hc⟩
      obtain ⟨x, y, hx, hy, hxy⟩ := bufferOf_merge_eq_ok_iff.1 hb
      exact ⟨x, y :: buffers, hx, ⟨y, hy, buffers, hbuffers, rfl⟩,
        bind_eq_ok_iff.2 ⟨b, hxy, hc⟩⟩
    · rintro ⟨x, -, hx, ⟨y, hy, buffers, hbuffers, rfl⟩, hc⟩
      obtain ⟨b, hxy, hc⟩ := bind_eq_ok_iff.1 hc
      exact ⟨b, buffers, bufferOf_merge_eq_ok_iff.2 ⟨x, y, hx, hy, hxy⟩, hbuffers, hc⟩

/-- The merge tree of a group that is cut into parts of one size. -/
def partsTree (size : Nat) (rows : List Row) : MergeTree :=
  MergeTree.fresh.inOrder (parts size rows)

theorem pieces_partsTree (size : Nat) (rows : List Row) :
    (partsTree size rows).pieces = parts size rows :=
  MergeTree.pieces_inOrder .fresh (parts size rows)

theorem rows_partsTree (size : Nat) (rows : List Row) : (partsTree size rows).rows = rows := by
  rw [MergeTree.rows, pieces_partsTree, flatten_parts]

theorem accumulatePartitioned_eq_ok_iff {size : Nat} {rows : List Row} {v : Value} :
    a.accumulatePartitioned size rows = .ok v ↔
      ∃ b, a.bufferOf (partsTree size rows) = .ok b ∧ a.result b = .ok v := by
  rw [accumulatePartitioned, bind_eq_ok_iff]
  simp only [partsTree, bufferOf_inOrder_eq_ok_iff, bind_eq_ok_iff]
  constructor
  · rintro ⟨buffers, hbuffers, b, hb, hv⟩
    exact ⟨b, ⟨_, buffers, rfl, hbuffers, hb⟩, hv⟩
  · rintro ⟨b, ⟨b₀, buffers, hb₀, hbuffers, hb⟩, hv⟩
    obtain rfl := Except.ok.inj hb₀
    exact ⟨buffers, hbuffers, b, hb, hv⟩

theorem accumulate_eq_ok_iff {rows : List Row} {v : Value} :
    a.accumulate rows = .ok v ↔ ∃ b, a.fold rows = .ok b ∧ a.result b = .ok v :=
  bind_eq_ok_iff

/-- A group that has a result in parts of one size has the same result as a whole. -/
theorem accumulate_of_accumulatePartitioned {size : Nat} {rows : List Row} {v : Value}
    (h : a.accumulatePartitioned size rows = .ok v) : a.accumulate rows = .ok v := by
  obtain ⟨b, hb, hv⟩ := accumulatePartitioned_eq_ok_iff.1 h
  have hfold := fold_of_bufferOf hb
  rw [rows_partsTree] at hfold
  exact accumulate_eq_ok_iff.2 ⟨b, hfold, hv⟩

/-- **Every cut and every order of merges is sound.** Let a group be cut into any parts, and let
the buffers of the parts be merged along any tree that keeps their order, with new buffers in any
places. If all steps succeed, then the result is that of the rows taken one after the other. In
particular this is so for parts of one size. -/
theorem accumulate_eq_of_mergeTree (a : Aggregate) (rows : List Row) :
    (∀ t : MergeTree, t.rows = rows → ∀ b, a.bufferOf t = .ok b →
      ∃ v, a.result b = .ok v ∧ a.accumulate rows = .ok v) ∧
    ∀ size v, a.accumulatePartitioned size rows = .ok v → a.accumulate rows = .ok v := by
  refine ⟨?_, fun _ _ ↦ accumulate_of_accumulatePartitioned⟩
  rintro t rfl b hb
  obtain ⟨v, hv⟩ := (isBuffer_of_bufferOf hb).exists_result
  exact ⟨v, hv, accumulate_eq_ok_iff.2 ⟨b, fold_of_bufferOf hb, hv⟩⟩

/-- Two nulls, a value and another value in three parts, with a new buffer before the last two. -/
theorem accumulate_first_of_mergeTree :
    let a : Aggregate := ⟨.first, .field ⟨0, "t", "a", .integer, true⟩⟩
    let t : MergeTree := .merge (.piece [⟨[.null]⟩])
      (.merge .fresh (.merge (.piece [⟨[.null]⟩, ⟨[.integer 5]⟩]) (.piece [⟨[.integer 7]⟩])))
    a.bufferOf t = .ok ⟨[.integer 5]⟩ ∧
      ∃ v, a.result ⟨[.integer 5]⟩ = .ok v ∧ a.accumulate t.rows = .ok v :=
  ⟨rfl, (accumulate_eq_of_mergeTree _ _).1 _ rfl _ rfl⟩

/-! ### When parts fail although the whole does not -/

/-- The child fails on a row of the part, and is null on all rows of the part before it. -/
def FailsOn (a : Aggregate) (part : List Row) (e : Error) : Prop :=
  ∃ before row later, part = before ++ row :: later ∧
    (∀ r ∈ before, a.child.eval r = .ok .null) ∧ a.child.eval row = .error e

theorem fold_first_eq_error_iff (ha : a.function = .first) {part : List Row} {e : Error} :
    a.fold part = .error e ↔ a.FailsOn part e := by
  rw [fold_first ha, map_eq_error_iff, Expr.firstValue_eq_error_iff]
  rfl

theorem exists_fold_first_iff (ha : a.function = .first) {part : List Row} :
    (∃ c, a.fold part = .ok c) ↔ ¬∃ e, a.FailsOn part e := by
  simp only [← fold_first_eq_error_iff ha]
  cases a.fold part <;> simp

/-- A group with a result has the same result by a merge tree exactly when each part can be folded
by itself. -/
theorem exists_result_iff {t : MergeTree} {v : Value} (h : a.accumulate t.rows = .ok v) :
    (∃ b, a.bufferOf t = .ok b ∧ a.result b = .ok v) ↔
      ∀ part ∈ t.pieces, ∃ c, a.fold part = .ok c := by
  obtain ⟨c, hc, hv⟩ := accumulate_eq_ok_iff.1 h
  rw [← exists_bufferOf_iff hc]
  constructor
  · rintro ⟨b, hb, -⟩
    exact ⟨b, hb⟩
  · rintro ⟨b, hb⟩
    obtain rfl := Except.ok.inj (hc.symm.trans (fold_of_bufferOf hb))
    exact ⟨c, hb, hv⟩

/-- Each part of a group with a result can be folded by itself, unless the aggregate is `first` and
its child fails on one of them. -/
theorem forall_exists_fold_iff {t : MergeTree} {v : Value} (h : a.accumulate t.rows = .ok v) :
    (∀ part ∈ t.pieces, ∃ c, a.fold part = .ok c) ↔
      ¬(a.function = .first ∧ ∃ part ∈ t.pieces, ∃ e, a.FailsOn part e) := by
  cases ha : a.function with
  | count =>
    obtain ⟨c, hc, -⟩ := accumulate_eq_ok_iff.1 h
    obtain ⟨b, hb⟩ := exists_bufferOf_of_count ha hc
    exact iff_of_true (fun part hpart ↦ exists_fold_of_mem_pieces hb hpart) (by simp)
  | first => simp [exists_fold_first_iff ha]

/-- Cut into parts, a group with a result fails only where its child does. -/
theorem failsOn_of_accumulatePartitioned {rows : List Row} {v : Value}
    (h : a.accumulate rows = .ok v) {size : Nat} {e : Error}
    (he : a.accumulatePartitioned size rows = .error e) :
    a.function = .first ∧ ∃ part ∈ parts size rows, a.FailsOn part e := by
  rw [← rows_partsTree size rows] at h
  rcases hm : (parts size rows).mapM a.fold with e' | buffers
  · rw [accumulatePartitioned, hm, error_bind, Except.error.injEq] at he
    subst he
    obtain ⟨part, hpart, hfold⟩ := exists_mem_of_mapM_eq_error hm
    cases ha : a.function with
    | count =>
      have hall := (forall_exists_fold_iff h).2 (by simp [ha])
      rw [pieces_partsTree] at hall
      obtain ⟨c, hc⟩ := hall part hpart
      exact nomatch hc.symm.trans hfold
    | first => exact ⟨rfl, part, hpart, (fold_first_eq_error_iff ha).1 hfold⟩
  · -- With a buffer for each part the tree of the parts would have a result.
    have hv := accumulatePartitioned_eq_ok_iff.2 <| (exists_result_iff h).2 fun part hpart ↦ by
      rw [pieces_partsTree] at hpart
      exact exists_of_mapM_eq_ok hm hpart
    exact nomatch hv.symm.trans he

/-- The first instant of a group, where instants are given by their seconds. -/
def firstInstant : Aggregate where
  function := .first
  child := .cast (.field ⟨0, "events", "seconds", .bigInteger, false⟩) .timestampTz <|
    some ⟨.bigInteger, .timestampTz,
      (Cast.ofBigInteger .timestampTz fun n ↦ DataType.instantOf (.bigInteger n) n.toInt).function⟩

/-- The last row is no instant. It is not evaluated after a first instant has been found, unless it
is in a part of its own. -/
theorem accumulatePartitioned_firstInstant :
    firstInstant.accumulate [⟨[.bigInteger 0]⟩, ⟨[.bigInteger Int64.maxValue]⟩] =
      .ok (.timestampTz ⟨0, 0, by decide, by decide, by decide⟩) ∧
    firstInstant.accumulatePartitioned 1 [⟨[.bigInteger 0]⟩, ⟨[.bigInteger Int64.maxValue]⟩] =
      .error (.overflow (.bigInteger Int64.maxValue) .timestampTz) := by
  have hparts (r s : Row) : parts 1 [r, s] = [[r], [s]] := by simp [parts]
  constructor
  · rfl
  · rw [accumulatePartitioned, hparts]
    rfl

/-- **What cutting a group into parts can change.** Let the rows of a group, taken one after the
other, have a result. Cut into parts of one size, they have the same result in every order of
merges, unless the aggregate is `first` and its child fails on a row of some part that is preceded
in this part by nulls only. In that case there is an error, and it is one of the child on such a
row. -/
theorem accumulatePartitioned_of_accumulate {rows : List Row} {v : Value}
    (h : a.accumulate rows = .ok v) (size : Nat) :
    (∀ t : MergeTree, t.pieces = parts size rows →
      ((∃ b, a.bufferOf t = .ok b ∧ a.result b = .ok v) ↔
        ¬(a.function = .first ∧ ∃ part ∈ parts size rows, ∃ e, a.FailsOn part e))) ∧
    (a.accumulatePartitioned size rows = .ok v ↔
      ¬(a.function = .first ∧ ∃ part ∈ parts size rows, ∃ e, a.FailsOn part e)) ∧
    (∀ e, a.accumulatePartitioned size rows = .error e →
      a.function = .first ∧ ∃ part ∈ parts size rows, a.FailsOn part e) ∧
    ((a.function = .first ∧ ∃ part ∈ parts size rows, ∃ e, a.FailsOn part e) →
      ∃ e, a.accumulatePartitioned size rows = .error e ∧
        ∃ part ∈ parts size rows, a.FailsOn part e) := by
  have htree (t : MergeTree) (ht : t.pieces = parts size rows) :
      (∃ b, a.bufferOf t = .ok b ∧ a.result b = .ok v) ↔
        ¬(a.function = .first ∧ ∃ part ∈ parts size rows, ∃ e, a.FailsOn part e) := by
    have hrows : t.rows = rows := by rw [MergeTree.rows, ht, flatten_parts]
    rw [← hrows] at h
    rw [← ht, exists_result_iff h, forall_exists_fold_iff h]
  have hparts := accumulatePartitioned_eq_ok_iff.trans (htree _ (pieces_partsTree size rows))
  refine ⟨htree, hparts, fun e he ↦ failsOn_of_accumulatePartitioned h he, fun hfails ↦ ?_⟩
  cases he : a.accumulatePartitioned size rows with
  | error e => exact ⟨e, rfl, (failsOn_of_accumulatePartitioned h he).2⟩
  | ok w =>
    -- A result of the parts would be the result of the whole.
    obtain rfl := Except.ok.inj (h.symm.trans (accumulate_of_accumulatePartitioned he))
    exact absurd hfails (hparts.1 he)

/-- The last of four rows is no instant. In two parts of two rows it follows an instant and is not
evaluated. In a part of its own it is, and there is an error. -/
theorem accumulatePartitioned_firstInstant_of_accumulate :
    let rows : List Row := [⟨[.null]⟩, ⟨[.bigInteger 0]⟩, ⟨[.bigInteger 1]⟩,
      ⟨[.bigInteger Int64.maxValue]⟩]
    let v : Value := .timestampTz ⟨0, 0, by decide, by decide, by decide⟩
    firstInstant.accumulate rows = .ok v ∧ parts 2 rows = [rows.take 2, rows.drop 2] ∧
      parts 3 rows = [rows.take 3, rows.drop 3] ∧
      firstInstant.accumulatePartitioned 2 rows = .ok v ∧
      ∃ e, firstInstant.accumulatePartitioned 3 rows = .error e ∧
        ∃ part ∈ parts 3 rows, firstInstant.FailsOn part e := by
  intro rows v
  have hrows : firstInstant.accumulate rows = .ok v := rfl
  have htwo : parts 2 rows = [rows.take 2, rows.drop 2] := by simp [rows, parts]
  have hthree : parts 3 rows = [rows.take 3, rows.drop 3] := by simp [rows, parts]
  have hfold : ∀ part ∈ parts 2 rows, ∃ c, firstInstant.fold part = .ok c := by
    rw [htwo]
    exact List.forall_mem_cons.2 ⟨⟨_, rfl⟩, List.forall_mem_singleton.2 ⟨_, rfl⟩⟩
  obtain ⟨-, hok, -, -⟩ := accumulatePartitioned_of_accumulate hrows 2
  obtain ⟨-, -, -, herror⟩ := accumulatePartitioned_of_accumulate hrows 3
  refine ⟨hrows, htwo, hthree, hok.2 ?_, herror ⟨rfl, rows.drop 3, by simp [hthree], ?_⟩⟩
  · rintro ⟨-, part, hpart, hfails⟩
    exact (exists_fold_first_iff rfl).1 (hfold part hpart) hfails
  · exact ⟨_, [], _, [], rfl, List.forall_mem_nil _, rfl⟩

end Aggregate

end LogicalQuery
