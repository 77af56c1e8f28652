import CachedParameters.Proofs.Batch.Modes

/-!
# What a batch leaves in the cache

A batch stores what it found under the keys of the names, and nothing else. A name that the cache
served keeps its entry, and so does every key that belongs to no name of the batch.

## Main results

- `Provider.find?_foldl_settle`, `Provider.find?_foldl_settle_of_mem`: what a key finds after names
  were settled.
- `Provider.find?_getByName_of_served`, `Provider.find?_getByName_of_other`: keys that a batch
  leaves alone.
-/

namespace CachedParameters

open Batch

/-- What a batch gets to see is settled, in the same order. -/
theorem Batch.upToFailure_sublist (strict : Bool) (settled : List Settled) :
    (upToFailure strict settled).Sublist settled := by
  rw [upToFailure]
  split
  · exact List.takeWhile_sublist _
  · exact List.Sublist.refl _

namespace Provider

variable {σ : Type} {p : Provider σ} {parameters : List (String × Overrides)}
  {options : BatchOptions} {s : State σ}

/-- What was not settled under a key leaves it alone. With keys that are all different, this tells
apart what each name of a batch does to the cache. -/
theorem find?_foldl_settle (settled : List Settled) (cache : Cache) (key : CacheKey)
    (h : ∀ x ∈ settled, x.pending.key ≠ key) :
    (settled.foldl Cache.settle cache).find? key = cache.find? key := by
  induction settled generalizing cache with
  | nil => rfl
  | cons x rest ih =>
      rw [List.foldl_cons, ih _ fun y hy => h y (List.mem_cons_of_mem x hy), Cache.settle]
      split
      · rw [Assoc.find?_insert, if_neg (h x List.mem_cons_self).symm]
      · rfl
      · rfl

/-- Where every key is settled once, it finds the value that was found for it, or else what it
found before. -/
theorem find?_foldl_settle_of_mem (settled : List Settled) (cache : Cache)
    (hkeys : (settled.map (·.pending.key)).Nodup) {x : Settled} (hx : x ∈ settled) :
    (settled.foldl Cache.settle cache).find? x.pending.key =
      (x.fate.value?.map fun value => (⟨.value value, x.time⟩ : CacheEntry)).or
        (cache.find? x.pending.key) := by
  induction settled generalizing cache with
  | nil => exact absurd hx List.not_mem_nil
  | cons first rest ih =>
      obtain ⟨hfirst, hrest⟩ := List.nodup_cons.mp hkeys
      rw [List.foldl_cons]
      rcases List.mem_cons.mp hx with rfl | hx
      · have hothers : ∀ y ∈ rest, y.pending.key ≠ x.pending.key := fun y hy hsame =>
          hfirst (List.mem_map.mpr ⟨y, hy, hsame⟩)
        rw [find?_foldl_settle _ _ _ hothers, Cache.settle]
        cases x.fate with
        | found value => rw [Assoc.find?_insert, if_pos rfl]; rfl
        | missing => rfl
        | failed e => rfl
      · have hne : first.pending.key ≠ x.pending.key := fun hsame =>
          hfirst (List.mem_map.mpr ⟨x, hx, hsame.symm⟩)
        have hkept := find?_foldl_settle [first] cache x.pending.key
          (List.forall_mem_singleton.mpr hne)
        rw [ih _ hrest hx]
        exact congrArg _ hkept

/-- What a batch settled belongs to a name that the cache did not serve. -/
theorem exists_of_mem_settled {x : Settled} (hx : x ∈ p.settled parameters options s) :
    ∃ entry ∈ p.misses options s (requested parameters).entries,
      (p.deferredOf options entry).pending = x.pending := by
  obtain ⟨answered, hanswered, hx⟩ := List.mem_flatMap.mp hx
  obtain ⟨pending, hpending, rfl⟩ := List.mem_map.mp hx
  have hcall := (p.answered_prefix parameters options s).subset (List.mem_map_of_mem hanswered)
  obtain ⟨entry, hentry, hdeferred⟩ :=
    p.exists_of_mem_planned parameters options s hcall hpending
  exact ⟨entry, hentry, congrArg Deferred.pending hdeferred⟩

/-- No key is settled twice. The names of a batch are distinct once the overrides are collected,
each is deferred at most once, and names with different keys stay apart. So it does not matter in
which order values are stored. -/
theorem settled_keys_nodup (p : Provider σ) (parameters : List (String × Overrides))
    (options : BatchOptions) (s : State σ) :
    ((p.settled parameters options s).map (·.pending.key)).Nodup := by
  have hplanned :
      (((p.planned parameters options s).flatMap (·.asked)).map (·.pending.key)).Nodup := by
    refine ((p.planned_perm parameters options s).map (·.pending.key)).nodup_iff.mpr ?_
    rw [List.map_map]
    refine List.Nodup.of_map (·.name) ?_
    rw [List.map_map]
    exact (requested parameters).names_nodup.sublist (List.filter_sublist.map _)
  have hasked : (p.settled parameters options s).map (·.pending.key) =
      (((p.answered parameters options s).map (·.call)).flatMap (·.asked)).map
        (·.pending.key) := by
    rw [settled, List.map_flatMap, List.flatMap_map, List.map_flatMap]
    refine List.flatMap_congr fun answered _ => ?_
    simp only [Answered.settled, BulkCall.asked, List.map_map]
    rfl
  obtain ⟨more, hmore⟩ := p.answered_prefix parameters options s
  rw [← hmore, List.flatMap_append, List.map_append] at hplanned
  rw [hasked]
  exact hplanned.of_append_left

/-- A batch leaves a key alone that it does not settle. -/
theorem find?_getByName_of_not_settled {key : CacheKey}
    (h : ∀ x ∈ p.settled parameters options s, x.pending.key ≠ key) :
    (p.getByName parameters options s).2.cache.find? key = s.cache.find? key := by
  by_cases hreserved : errorsKey ∈ (requested parameters).names
  · rw [getByName_of_reserved hreserved]
  · rw [(getByName_eq hreserved).2.2]
    exact find?_foldl_settle _ _ _ fun x hx => h x ((upToFailure_sublist _ _).subset hx)

/-- A batch leaves alone what is kept for a name that the cache served. -/
theorem find?_getByName_of_served {name : String} {overrides : Overrides}
    {value : ParameterValue} (hname : (requested parameters).get? name = some overrides)
    (hserved : p.served? options s (name, overrides) = some value) :
    (p.getByName parameters options s).2.cache.find?
        (p.singleKey name (options.forName overrides)) =
      s.cache.find? (p.singleKey name (options.forName overrides)) := by
  refine find?_getByName_of_not_settled fun x hx hkey => ?_
  obtain ⟨⟨other, others⟩, hentry, hpending⟩ := exists_of_mem_settled hx
  obtain ⟨hmem, hmissed⟩ := List.mem_filter.mp hentry
  rw [← hpending] at hkey
  obtain rfl : other = name := (CacheKey.single_inj.mp hkey).2.1
  rw [Dict.mem_entries_iff.mp hmem] at hname
  rw [Option.some.inj hname, hserved] at hmissed
  exact Bool.noConfusion hmissed

end Provider

end CachedParameters
