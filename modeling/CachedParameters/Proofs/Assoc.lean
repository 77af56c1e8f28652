import CachedParameters.Assoc
import Mathlib.Data.List.Nodup

/-!
# Insertions into association lists

An insertion that is overwritten at once might as well not have been made, and only an insertion for
a key without a value makes an association list longer.

## Main results

- `Assoc.insert_insert`: the last of two insertions for a key counts.
- `Assoc.size_insert`: when an insertion makes the list longer.
- `Assoc.size_eq_length`: the size is the number of keys that have a value.
-/

namespace CachedParameters.Assoc

universe u v

variable {κ : Type u} {α : Type v} [DecidableEq κ]

theorem insert_insert (a : Assoc κ α) (key : κ) (first last : α) :
    (a.insert key first).insert key last = a.insert key last := by
  simp [insert, List.filter_filter]

/-- A key has a value if it is among the keys. -/
theorem find?_isSome_iff {a : Assoc κ α} {key : κ} :
    (a.find? key).isSome = true ↔ key ∈ a.entries.map (·.1) := by
  rw [find?, List.lookup_isSome_iff, List.mem_map]
  constructor
  · rintro ⟨entry, hmem, hkey⟩
    exact ⟨entry, hmem, (beq_iff_eq.mp hkey).symm⟩
  · rintro ⟨entry, hmem, rfl⟩
    exact ⟨entry, hmem, beq_self_eq_true entry.1⟩

/-- What stands in an association list is what its key finds. -/
theorem find?_of_mem {a : Assoc κ α} {entry : κ × α} (h : entry ∈ a.entries) :
    a.find? entry.1 = some entry.2 := by
  obtain ⟨before, behind, hentries⟩ := List.append_of_mem h
  have hdistinct := a.distinct
  rw [hentries, List.map_append, List.map_cons] at hdistinct
  rw [find?, hentries, List.lookup_eq_some_iff]
  refine ⟨before, behind, rfl, fun other hother => ?_⟩
  have hne : other.1 ≠ entry.1 := by
    have hapart := (List.nodup_append.mp hdistinct).2.2
    exact hapart other.1 (List.mem_map_of_mem hother) entry.1 List.mem_cons_self
  exact bne_iff_ne.mpr hne.symm

/-- Only an insertion for a key without a value makes an association list longer. -/
theorem size_insert (a : Assoc κ α) (key : κ) (value : α) :
    (a.insert key value).size = a.size + if (a.find? key).isSome then 0 else 1 := by
  have hfilter : (a.entries.filter fun old => old.1 ≠ key).length =
      ((a.entries.map (·.1)).erase key).length := by
    rw [a.distinct.erase_eq_filter, List.filter_map, List.length_map]
    congr 2
    funext old
    exact decide_not
  rw [size, insert, List.length_cons, hfilter, size]
  by_cases hkey : key ∈ a.entries.map (·.1)
  · have hpos := List.length_pos_of_mem hkey
    rw [List.length_erase_of_mem hkey, if_pos (find?_isSome_iff.mpr hkey)]
    rw [List.length_map] at hpos ⊢
    omega
  · rw [List.erase_of_not_mem hkey, if_neg fun h => hkey (find?_isSome_iff.mp h), List.length_map]

/-- The size is the number of keys that have a value, in whatever order and however often they were
inserted. So what a run leaves behind can be counted by a list of the keys it was about. -/
theorem size_eq_length {a : Assoc κ α} {keys : List κ} (hkeys : keys.Nodup)
    (h : ∀ key, (a.find? key).isSome = true ↔ key ∈ keys) : a.size = keys.length := by
  have hperm : (a.entries.map (·.1)).Perm keys :=
    (List.perm_ext_iff_of_nodup a.distinct hkeys).mpr fun key =>
      find?_isSome_iff.symm.trans (h key)
  rw [size, ← hperm.length_eq, List.length_map]

end CachedParameters.Assoc
