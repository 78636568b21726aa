import LogicalQuery.Text.LowerCase

/-!
# Tables of names

A table from names to data in which names count as equal when their lower case is. An entry is
never overwritten.
-/

namespace LogicalQuery

open LogicalQuery.Text

/-- Data by name, where the case of names does not matter. -/
structure NameTable (α : Type) where
  /-- The names in lower case with their data, in the order of entry. -/
  entries : List (String × α)

namespace NameTable

variable {α : Type}

/-- The table without entries. -/
def empty : NameTable α := ⟨[]⟩

/-- The data under a name. -/
def find? (t : NameTable α) (name : String) : Option α := t.entries.lookup (toLower name)

/-- Whether there is an entry under a name. -/
def contains (t : NameTable α) (name : String) : Bool := (t.find? name).isSome

/-- The table with one more entry, unless the name is taken. -/
def insertNew? (t : NameTable α) (name : String) (a : α) : Option (NameTable α) :=
  if t.contains name then none else some ⟨t.entries ++ [(toLower name, a)]⟩

/-- The table with other data under the name, if it has the name. -/
def replace (t : NameTable α) (name : String) (a : α) : NameTable α :=
  ⟨t.entries.map fun e ↦ if e.1 == toLower name then (e.1, a) else e⟩

/-- The data of all entries. -/
def values (t : NameTable α) : List α := t.entries.map (·.2)

/-- A new entry is found under every spelling of its name, and every other entry as before. -/
theorem find?_insertNew? {t u : NameTable α} {name : String} {a : α}
    (h : t.insertNew? name a = some u) (other : String) :
    u.find? other = if toLower other = toLower name then some a else t.find? other := by
  unfold insertNew? at h
  split at h
  next => exact absurd h (by simp)
  next hn =>
    obtain rfl := Option.some.inj h
    have hnone : t.find? name = none := by
      simpa only [contains, Bool.not_eq_true, Option.isSome_eq_false_iff,
        Option.isNone_iff_eq_none] using hn
    by_cases heq : toLower other = toLower name
    · simp only [find?, List.lookup_append, List.lookup_cons, heq] at hnone ⊢
      simp [hnone]
    · simp [find?, List.lookup_append, List.lookup_cons, heq, beq_false_of_ne heq]

theorem insertNew?_eq_none_iff {t : NameTable α} {name : String} {a : α} :
    t.insertNew? name a = none ↔ t.contains name = true := by
  unfold insertNew?
  split <;> simp_all

end NameTable

end LogicalQuery
