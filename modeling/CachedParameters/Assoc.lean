/-!
# Association lists

An `Assoc` keeps one value for each key of a type with decidable equality. The value inserted last
comes first, and an insertion takes the place of what its key had. The entries of a `ParameterCache`
and the configuration providers of a facade are kept so, as no operation depends on their order.

## Main results

- `Assoc.find?_insert`: what a look-up sees after an insertion.
-/

namespace CachedParameters

universe u v

/-- Values by key, each key once. -/
structure Assoc (κ : Type u) (α : Type v) where
  /-- The entries, the latest first. -/
  entries : List (κ × α)
  /-- No key occurs twice. -/
  distinct : (entries.map (·.1)).Nodup

namespace Assoc

variable {κ : Type u} {α : Type v} [DecidableEq κ]

def empty : Assoc κ α := ⟨[], List.nodup_nil⟩

/-- The value of a key, if it has one. -/
def find? (a : Assoc κ α) (key : κ) : Option α := a.entries.lookup key

/-- Gives a key a value, in place of the one it had. -/
def insert (a : Assoc κ α) (key : κ) (value : α) : Assoc κ α where
  entries := (key, value) :: a.entries.filter fun old => old.1 ≠ key
  distinct := by
    have h : ((a.entries.filter fun old => old.1 ≠ key).map (·.1)).Nodup :=
      a.distinct.sublist (List.filter_sublist.map _)
    simpa using h

/-- The number of keys that have a value. -/
def size (a : Assoc κ α) : Nat := a.entries.length

@[simp] theorem find?_empty (key : κ) : (empty : Assoc κ α).find? key = none := rfl

/-- Dropping the entries of one key does not change what another key finds. -/
theorem lookup_filter_ne {key other : κ} (h : other ≠ key) (entries : List (κ × α)) :
    (entries.filter fun old => old.1 ≠ key).lookup other = entries.lookup other := by
  induction entries with
  | nil => rfl
  | cons old rest ih =>
    by_cases ho : old.1 = key
    · have hb : (other == old.1) = false := by simpa [ho] using h
      rw [List.filter_cons_of_neg (by simp [ho]), List.lookup_cons, hb]
      exact ih
    · rw [List.filter_cons_of_pos (by simp [ho]), List.lookup_cons, List.lookup_cons, ih]

/-- After an insertion the key finds the new value, and every other key finds what it found. -/
theorem find?_insert (a : Assoc κ α) (key other : κ) (value : α) :
    (a.insert key value).find? other = if other = key then some value else a.find? other := by
  simp only [find?, insert, List.lookup_cons]
  by_cases h : other = key
  · simp [h]
  · have hb : (other == key) = false := by simpa using h
    rw [if_neg h, ← lookup_filter_ne h a.entries]
    simp only [hb]

end Assoc

end CachedParameters
