import CachedParameters.Proofs.Batch.Course

/-!
# What a batch collects

A result is filled name by name, with a value or with none. If every name is put in once, the result
tells of every name exactly what was put in: its value, or that it failed. The names of a batch are
put in once each: those that the cache serves at the beginning, and every other one when its fate is
known.

## Main results

- `BatchResult.ofOutcomes_value_iff`, `BatchResult.ofOutcomes_error_iff`: a result tells what was
  put in.
- `Provider.outcomes_perm`: a graceful batch puts in every requested name once.
- `Provider.collected_value_iff`, `Provider.collected_error_iff`: what a graceful batch collects.
-/

namespace CachedParameters

open Batch

/-- Where every name occurs once, a look-up finds what stands in the list. -/
theorem Entries.get?_eq_some_iff {α : Type} {entries : List (String × α)}
    (h : (entries.map (·.1)).Nodup) {name : String} {value : α} :
    get? name entries = some value ↔ (name, value) ∈ entries := by
  refine ⟨mem_of_get?, ?_⟩
  induction entries with
  | nil => exact fun hmem => absurd hmem List.not_mem_nil
  | cons entry rest ih =>
      obtain ⟨hfirst, hrest⟩ := List.nodup_cons.mp h
      intro hmem
      rw [get?]
      rcases List.mem_cons.mp hmem with rfl | hmem
      · rw [if_pos rfl]
      · have hne : entry.1 ≠ name := by
          rintro rfl
          exact hfirst (List.mem_map.mpr ⟨_, hmem, rfl⟩)
        rw [if_neg hne]
        exact ih hrest hmem

namespace BatchResult

/-! ### Filling a result -/

/-- Puts in a name with its value, or with none if it failed. -/
def put (r : BatchResult) (name : String) : Option ParameterValue → BatchResult
  | some value => r.addValue name value
  | none => r.addError name

/-- The result of putting in names one after another. -/
def ofOutcomes (outcomes : List (String × Option ParameterValue)) : BatchResult :=
  outcomes.foldl (fun r outcome => r.put outcome.1 outcome.2) .empty

/-- The value of a name is what was put in last. -/
theorem values_put (r : BatchResult) (name other : String) (outcome : Option ParameterValue) :
    (r.put name outcome).values.get? other =
      if name = other then outcome else r.values.get? other := by
  cases outcome with
  | some value => exact Dict.get?_insert ..
  | none => exact Dict.get?_erase ..

/-- A name has failed if it was put in last without a value. -/
theorem failures_put (r : BatchResult) (name other : String) (outcome : Option ParameterValue) :
    (r.put name outcome).failures.get? other =
      if name = other then (if outcome.isNone then some () else none)
      else r.failures.get? other := by
  cases outcome with
  | some value => exact Dict.get?_erase ..
  | none => exact Dict.get?_insert ..

/-- What a result tells of a name after several were put in. -/
theorem foldl_put (r : BatchResult) (outcomes : List (String × Option ParameterValue))
    (name : String) :
    (outcomes.foldl (fun r outcome => r.put outcome.1 outcome.2) r).values.get? name =
        (Entries.get? name outcomes.reverse).getD (r.values.get? name) ∧
      (outcomes.foldl (fun r outcome => r.put outcome.1 outcome.2) r).failures.get? name =
        ((Entries.get? name outcomes.reverse).map fun outcome =>
          if outcome.isNone then some () else none).getD (r.failures.get? name) := by
  induction outcomes generalizing r with
  | nil => exact ⟨rfl, rfl⟩
  | cons outcome rest ih =>
      obtain ⟨hvalues, hfailures⟩ := ih (r.put outcome.1 outcome.2)
      rw [List.foldl_cons, hvalues, hfailures, List.reverse_cons, Entries.get?_append,
        values_put, failures_put]
      cases Entries.get? name rest.reverse with
      | some last => exact ⟨rfl, rfl⟩
      | none =>
          rw [Entries.get?]
          by_cases h : outcome.1 = name
          · simp [h]
          · simp [h, Entries.get?]

variable {outcomes : List (String × Option ParameterValue)}

/-- A look-up from the end finds what stands in the list, too. -/
theorem get?_reverse_iff (h : (outcomes.map (·.1)).Nodup) {name : String}
    {outcome : Option ParameterValue} :
    Entries.get? name outcomes.reverse = some outcome ↔ (name, outcome) ∈ outcomes := by
  have hreverse : (outcomes.reverse.map (·.1)).Nodup := by
    rw [List.map_reverse]
    exact List.nodup_reverse.mpr h
  rw [Entries.get?_eq_some_iff hreverse, List.mem_reverse]

/-- **A result tells the values that were put in.** -/
theorem ofOutcomes_value_iff (h : (outcomes.map (·.1)).Nodup) {name : String}
    {value : ParameterValue} :
    (ofOutcomes outcomes).values.get? name = some value ↔ (name, some value) ∈ outcomes := by
  rw [ofOutcomes, (foldl_put _ outcomes name).1, ← get?_reverse_iff h]
  cases Entries.get? name outcomes.reverse with
  | none => simp [empty]
  | some outcome => simp

/-- **A result tells the names that were put in without a value.** -/
theorem ofOutcomes_error_iff (h : (outcomes.map (·.1)).Nodup) {name : String} :
    name ∈ (ofOutcomes outcomes).errors ↔ (name, none) ∈ outcomes := by
  rw [errors, Dict.mem_names_iff, ofOutcomes, (foldl_put _ outcomes name).2,
    ← get?_reverse_iff h]
  cases Entries.get? name outcomes.reverse with
  | none => simp [empty]
  | some outcome => cases outcome <;> simp

theorem isComplete_iff {r : BatchResult} : r.isComplete = true ↔ r.errors = [] := by
  rw [isComplete, errors, Dict.names, List.isEmpty_iff, List.map_eq_nil_iff]

theorem errors_ascending (r : BatchResult) : r.errors.Pairwise (· < ·) :=
  r.failures.names_ascending

end BatchResult

/-! ### Fates as outcomes -/

/-- The value of a name, if it was found. -/
def Batch.Fate.value? : Fate → Option ParameterValue
  | .found value => some value
  | .missing | .failed _ => none

/-- What is put in for a name when its fate is known. -/
def Batch.Settled.outcome (settled : Settled) : String × Option ParameterValue :=
  (settled.pending.name, settled.fate.value?)

theorem BatchResult.settle_eq_put (r : BatchResult) (settled : Settled) :
    r.settle settled = r.put settled.outcome.1 settled.outcome.2 := by
  rw [settle, Settled.outcome]
  cases settled.fate <;> rfl

namespace Provider

variable {σ : Type} (p : Provider σ) (parameters : List (String × Overrides))
  (options : BatchOptions) (s : State σ)

/-- Everything that a batch puts in: the names that the cache serves, and those with a fate. -/
def outcomes : List (String × Option ParameterValue) :=
  (p.hits options s (requested parameters).entries).map (fun hit => (hit.1, some hit.2)) ++
    (p.settled parameters options s).map (·.outcome)

/-- What a batch collects is what it puts in. -/
theorem collected_eq :
    p.collected parameters options s = .ofOutcomes (p.outcomes parameters options s) := by
  rw [collected, BatchResult.ofOutcomes, outcomes, List.foldl_append, List.foldl_map,
    List.foldl_map]
  congr 1
  funext r settled
  exact r.settle_eq_put settled

/-- The names with a fate are those that were asked for. -/
theorem settled_pending :
    (p.settled parameters options s).map (·.pending) =
      ((p.answered parameters options s).map (·.call)).flatMap (·.lookups) := by
  rw [settled, List.map_flatMap, List.flatMap_map]
  refine List.flatMap_congr fun answered _ => ?_
  rw [Answered.settled, List.map_map]
  exact List.map_id _

/-- A graceful batch makes all the calls that it plans. -/
theorem answered_calls :
    (p.answered parameters { options with strict := false } s).map (·.call) =
      p.planned parameters options s := by
  rw [answered_strict, answers_calls]

/-- The names that the cache serves, in ascending order. -/
theorem hits_names (entries : List (String × Overrides)) :
    (p.hits options s entries).map (·.1) =
      (entries.filter fun entry => (p.served? options s entry).isSome).map (·.1) := by
  rw [hits, List.map_filterMap]
  induction entries with
  | nil => rfl
  | cons entry rest ih =>
      rw [List.filterMap_cons, List.filter_cons]
      cases h : p.served? options s entry with
      | some value => simpa [h] using ih
      | none => simpa [h] using ih

/-- A graceful batch settles the names that the cache does not serve, each once. -/
theorem settled_perm :
    ((p.settled parameters { options with strict := false } s).map (·.pending)).Perm
      ((p.misses options s (requested parameters).entries).map fun entry =>
        (p.deferredOf options entry).pending) := by
  have hplanned := (p.planned_perm parameters options s).map (·.pending)
  rw [List.map_map] at hplanned
  refine (List.Perm.of_eq ?_).trans hplanned
  rw [settled_pending, answered_calls, List.map_flatMap]
  refine List.flatMap_congr fun call _ => ?_
  rw [BulkCall.asked, List.map_map]
  exact (List.map_id _).symm

/-- **A graceful batch puts in every requested name once**: those that the cache serves, and those
that were deferred, each of which is settled by one call. -/
theorem outcomes_perm :
    ((p.outcomes parameters { options with strict := false } s).map (·.1)).Perm
      (requested parameters).names := by
  have hsettled := (p.settled_perm parameters options s).map (·.name)
  rw [List.map_map, List.map_map] at hsettled
  have hsplit := List.filter_append_perm
    (fun entry => (p.served? options s entry).isSome) (requested parameters).entries
  rw [outcomes, List.map_append, List.map_map, List.map_map]
  refine (List.Perm.append (List.Perm.of_eq (p.hits_names _ s _)) hsettled).trans ?_
  refine (List.Perm.of_eq (List.map_append).symm).trans ?_
  refine (List.Perm.map _ ?_).trans (hsplit.map (·.1))
  refine List.Perm.append_left _ (List.Perm.of_eq (List.filter_congr fun entry _ => ?_))
  rw [Option.not_isSome]

theorem outcomes_nodup :
    ((p.outcomes parameters { options with strict := false } s).map (·.1)).Nodup :=
  (p.outcomes_perm parameters options s).nodup_iff.mpr (requested parameters).names_nodup

/-- **The values that a graceful batch collects** are those that were served or found. -/
theorem collected_value_iff {name : String} {value : ParameterValue} :
    (p.collected parameters { options with strict := false } s).values.get? name = some value ↔
      (name, some value) ∈ p.outcomes parameters { options with strict := false } s := by
  rw [collected_eq]
  exact BatchResult.ofOutcomes_value_iff (p.outcomes_nodup parameters options s)

/-- **The names that fail in a graceful batch** are those that were asked for without success. -/
theorem collected_error_iff {name : String} :
    name ∈ (p.collected parameters { options with strict := false } s).errors ↔
      (name, none) ∈ p.outcomes parameters { options with strict := false } s := by
  rw [collected_eq]
  exact BatchResult.ofOutcomes_error_iff (p.outcomes_nodup parameters options s)

end Provider

end CachedParameters
