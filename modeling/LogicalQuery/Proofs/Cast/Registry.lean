import LogicalQuery.Cast.Standard
import Mathlib.Data.Finset.Card
import Mathlib.Data.List.Induction

/-!
# Histories of a registry

A registry is made with some casts and used by registering others. It lists each pair of types that
has ever been registered once, in the order of first registration, and finds the cast that was
registered last for a pair (`Reflects`). One more registration keeps this (`Reflects.register`), so it
holds after any history (`Reflects.registerAll`). All answers of a registry are read off it
(`lookups_registerAll`).
-/

namespace LogicalQuery

/-- The types between which a cast leads. -/
def Cast.pair (c : Cast) : DataType × DataType := (c.source, c.target)

namespace CastRegistry

/-- The pairs of types that are registered in the course of a history, one for each registration. -/
def registered (history : List Cast) : List (DataType × DataType) := history.map Cast.pair

variable {r start : CastRegistry} {c : Cast} {history initial before later : List Cast}
  {source target : DataType}

theorem isFor_iff : isFor source target c = true ↔ c.pair = (source, target) := by
  rw [isFor, Bool.and_eq_true, beq_iff_eq, beq_iff_eq, Cast.pair, Prod.mk.injEq]

/-- A pair of two types that is listed has a cast among those of the registry, which is found. -/
theorem exists_of_mem_pairs (h : (source, target) ∈ r.pairs) (hne : source ≠ target) :
    ∃ c ∈ r.casts, c.pair = (source, target) ∧ r.function source target = .ok c.function := by
  obtain ⟨c, hc, hpair⟩ := List.mem_map.1 h
  obtain ⟨d, hd⟩ := Option.isSome_iff_exists.1
    (List.find?_isSome.2 ⟨c, hc, isFor_iff.2 hpair⟩)
  refine ⟨d, List.mem_of_find?_eq_some hd, isFor_iff.1 (List.find?_some hd), ?_⟩
  rw [function, if_neg hne, hd]

/-! ### One registration -/

/-- A cast for a known pair takes the place of the old one, and one for a new pair is added at the
end. -/
theorem map_pair_insertInto (c : Cast) (casts : List Cast) :
    (insertInto c casts).map Cast.pair =
      if c.pair ∈ casts.map Cast.pair then casts.map Cast.pair
      else casts.map Cast.pair ++ [c.pair] := by
  induction casts with
  | nil => rfl
  | cons d ds ih =>
    rw [insertInto]
    split
    next hd =>
      have hpair : d.pair = c.pair := isFor_iff.1 hd
      rw [List.map_cons, List.map_cons, hpair, if_pos List.mem_cons_self]
    next hd =>
      have hpair : c.pair ≠ d.pair := fun h ↦ hd (isFor_iff.2 h.symm)
      rw [List.map_cons, List.map_cons, ih]
      simp only [List.mem_cons, hpair, false_or]
      split
      next => rfl
      next => rfl

theorem pairs_register (r : CastRegistry) (c : Cast) :
    (r.register c).pairs = if c.pair ∈ r.pairs then r.pairs else r.pairs ++ [c.pair] :=
  map_pair_insertInto c r.casts

/-! ### Histories -/

/-- The registry holds what has been registered: each pair once, in the order of first registration,
and with the cast that was registered for it last. -/
structure Reflects (history : List Cast) (r : CastRegistry) : Prop where
  mem_pairs_iff (p : DataType × DataType) : p ∈ r.pairs ↔ p ∈ registered history
  pairwise_pairs : r.pairs.Pairwise fun p q ↦
    (registered history).idxOf p < (registered history).idxOf q
  find?_eq (source target : DataType) :
    r.casts.find? (isFor source target) = history.reverse.find? (isFor source target)

theorem reflects_empty : Reflects [] empty := ⟨fun _ ↦ .rfl, .nil, fun _ _ ↦ rfl⟩

theorem registered_append (history later : List Cast) :
    registered (history ++ later) = registered history ++ registered later :=
  List.map_append

namespace Reflects

/-- **A registry goes on reflecting its history when a cast is registered.** -/
theorem register (h : Reflects history r) (c : Cast) :
    Reflects (history ++ [c]) (r.register c) := by
  -- Later registrations do not change when a pair was first registered.
  have hidx (p : DataType × DataType) (hp : p ∈ r.pairs) :
      (registered (history ++ [c])).idxOf p = (registered history).idxOf p := by
    rw [registered_append, List.idxOf_append_of_mem ((h.mem_pairs_iff p).1 hp)]
  have hpairwise : r.pairs.Pairwise fun p q ↦
      (registered (history ++ [c])).idxOf p < (registered (history ++ [c])).idxOf q :=
    h.pairwise_pairs.imp_of_mem fun hp hq hlt ↦ by rwa [hidx _ hp, hidx _ hq]
  refine ⟨fun p ↦ ?_, ?_, fun source target ↦ ?_⟩
  · rw [pairs_register, registered_append, List.mem_append, ← h.mem_pairs_iff, registered,
      List.map_singleton, List.mem_singleton]
    split
    next hc => exact ⟨.inl, fun hp ↦ hp.elim id fun heq ↦ heq ▸ hc⟩
    next => rw [List.mem_append, List.mem_singleton]
  · rw [pairs_register]
    split
    next => exact hpairwise
    next hc =>
      refine List.pairwise_append.2 ⟨hpairwise, List.pairwise_singleton _ _, fun p hp q hq ↦ ?_⟩
      obtain rfl := List.mem_singleton.1 hq
      -- The new pair comes after the whole history, and the others are in it.
      rw [hidx p hp, registered_append,
        List.idxOf_append_of_notMem fun hmem ↦ hc ((h.mem_pairs_iff _).2 hmem)]
      exact Nat.lt_add_right _ (List.idxOf_lt_length_iff.2 ((h.mem_pairs_iff p).1 hp))
  · rw [CastRegistry.register, find?_insertInto, h.find?_eq, List.reverse_append,
      List.reverse_singleton, List.singleton_append, List.find?_cons]
    cases isFor source target c <;> rfl

theorem nodup_pairs (h : Reflects history r) : r.pairs.Nodup :=
  h.pairwise_pairs.imp fun hlt ↦ ne_of_apply_ne (registered history).idxOf (Nat.ne_of_lt hlt)

/-- There are as many casts as different pairs have been registered. -/
theorem size_eq (h : Reflects history r) : r.size = (registered history).toFinset.card := by
  have hset : r.pairs.toFinset = (registered history).toFinset := by
    ext p
    rw [List.mem_toFinset, List.mem_toFinset, h.mem_pairs_iff]
  rw [← hset, List.toFinset_card_of_nodup h.nodup_pairs, pairs, List.length_map, size]

theorem contains_iff (h : Reflects history r) :
    r.contains source target = true ↔ (source, target) ∈ registered history := by
  rw [← h.mem_pairs_iff, contains, List.any_eq_true]
  show _ ↔ _ ∈ r.casts.map Cast.pair
  simp only [isFor_iff, List.mem_map]

/-- A cast that is not from a type to itself is found until its pair is registered again. -/
theorem function_eq (h : Reflects (before ++ c :: later) r) (hne : c.source ≠ c.target)
    (hlast : c.pair ∉ registered later) : r.function c.source c.target = .ok c.function := by
  have hlater : ∀ d ∈ later, (!isFor c.source c.target d) = true := by
    intro d hd
    rw [Bool.not_eq_true', Bool.eq_false_iff]
    exact fun hfor ↦ hlast (List.mem_map.2 ⟨d, hd, isFor_iff.1 hfor⟩)
  have hfind : r.casts.find? (isFor c.source c.target) = some c := by
    rw [h.find?_eq, List.find?_eq_some_iff_append]
    refine ⟨isFor_iff.2 rfl, later.reverse, before.reverse, by simp, fun d hd ↦ ?_⟩
    exact hlater d (List.mem_reverse.1 hd)
  rw [function, if_neg hne, hfind]

/-- Only a pair of two types that has never been registered is refused. -/
theorem function_eq_error_iff (h : Reflects history r) {e : Error} :
    r.function source target = .error e ↔
      e = .noSuchCast source target ∧ source ≠ target ∧
        (source, target) ∉ registered history := by
  rw [← h.contains_iff, contains, Bool.not_eq_true, ← List.isSome_find?, function]
  by_cases heq : source = target
  · simp [heq]
  · rw [if_neg heq]
    cases r.casts.find? (isFor source target) <;> simp [heq, eq_comm]

end Reflects

/-- The registry after casts are registered one by one. -/
def registerAll (r : CastRegistry) (casts : List Cast) : CastRegistry := casts.foldl register r

/-- **After any history, a registry reflects it.** -/
theorem Reflects.registerAll (h : Reflects history r) (casts : List Cast) :
    Reflects (history ++ casts) (r.registerAll casts) := by
  induction casts using List.reverseRecOn with
  | nil => rwa [List.append_nil]
  | append_singleton casts c ih =>
    rw [← List.append_assoc, CastRegistry.registerAll, List.foldl_append]
    exact ih.register c

/-- A registry as it is made, with the casts that are registered in it from the start. -/
inductive IsInitial : List Cast → CastRegistry → Prop
  | empty : IsInitial [] empty
  | standard : IsInitial Cast.standard standard

theorem IsInitial.reflects (h : IsInitial initial start) : Reflects initial start := by
  cases h with
  | empty => exact reflects_empty
  | standard => exact reflects_empty.registerAll Cast.standard

/-- **A registry is a map in which entries are replaced in place, over a fixed identity.** After any
registrations it lists each pair of types that has been registered once, in the order of first
registration, and it counts and contains these. A type casts to itself by the identity, whatever has
been registered for that pair. Any other pair finds the function that was registered last, and is
refused exactly if none was. -/
theorem lookups_registerAll (h : IsInitial initial start) (casts : List Cast) :
    ((start.registerAll casts).pairs.Nodup ∧
      (∀ p, p ∈ (start.registerAll casts).pairs ↔ p ∈ registered (initial ++ casts)) ∧
      (start.registerAll casts).pairs.Pairwise fun p q ↦
        (registered (initial ++ casts)).idxOf p < (registered (initial ++ casts)).idxOf q) ∧
    ((start.registerAll casts).size = (registered (initial ++ casts)).toFinset.card ∧
      ((start.registerAll casts).isEmpty = true ↔ (start.registerAll casts).size = 0)) ∧
    (∀ source target, (start.registerAll casts).contains source target = true ↔
      (source, target) ∈ registered (initial ++ casts)) ∧
    (∀ t, (start.registerAll casts).function t t = .ok .ok) ∧
    (∀ before c later, initial ++ casts = before ++ c :: later → c.source ≠ c.target →
      c.pair ∉ registered later →
        (start.registerAll casts).function c.source c.target = .ok c.function) ∧
    ∀ source target e, (start.registerAll casts).function source target = .error e ↔
      e = .noSuchCast source target ∧ source ≠ target ∧
        (source, target) ∉ registered (initial ++ casts) := by
  have hreflects := h.reflects.registerAll casts
  refine ⟨⟨hreflects.nodup_pairs, hreflects.mem_pairs_iff, hreflects.pairwise_pairs⟩,
    ⟨hreflects.size_eq, List.isEmpty_iff_length_eq_zero⟩, fun _ _ ↦ hreflects.contains_iff,
    fun t ↦ function_self _ t, fun before c later heq hne hlast ↦ ?_,
    fun _ _ _ ↦ hreflects.function_eq_error_iff⟩
  exact (heq ▸ hreflects).function_eq hne hlast

/-- Truth values get other words, and a cast of integers that refuses them all is registered, which is
never found. -/
theorem lookups_registerAll_yesNo :
    let yes : Cast := .ofBoolean .string fun b ↦ .string (if b then "yes" else "no")
    let refuse : Cast := ⟨.integer, .integer, fun v ↦ .error (.overflow v .integer)⟩
    let r := standard.registerAll [yes, refuse]
    IsInitial Cast.standard standard ∧ r.size = 23 ∧ r.contains .integer .integer = true ∧
      r.function .integer .integer = .ok .ok ∧ r.function .boolean .string = .ok yes.function ∧
      r.function .string .timestamp = .error (.noSuchCast .string .timestamp) := by
  intro yes refuse r
  obtain ⟨-, ⟨hsize, -⟩, hcontains, hself, hlast, herror⟩ :=
    lookups_registerAll IsInitial.standard [yes, refuse]
  refine ⟨.standard, hsize.trans (by decide), (hcontains _ _).2 (by decide), hself _, ?_,
    (herror _ _ _).2 ⟨rfl, by decide, by decide⟩⟩
  exact hlast Cast.standard yes [refuse] rfl (by decide) (by decide)

end CastRegistry

end LogicalQuery
