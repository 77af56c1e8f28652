import CachedParameters.Proofs.Batch.Calls
import CachedParameters.Proofs.Batch.Kept

/-!
# What a batch stores

A batch stores a name as soon as its value was decoded, and it may end with an error at any point
after that. However it ends, the cache afterwards is the one before, but for the names that were
decoded by then: each of them has its value, stamped with the time of the answer that brought it.
What was kept for the other names of the batch stays.

Which names were decoded can be told from the calls that were answered. A strict batch makes no call
behind one that shows a fault, so it remains to look into each call by itself: all its names up to
the first fault.

## Main results

- `Provider.upToFailure_answers`: the fates that a batch gets to see, call by call.
- `Provider.decodes_iff`: the names that were decoded are those whose values it got to see.
- `Provider.getByName_stores`: the cache after a batch.
-/

namespace CachedParameters

open Batch

namespace Batch

/-! ### What a batch gets to see -/

/-- A fate is seen unless a strict batch meets a failure with it or before it. -/
theorem mem_upToFailure_iff {strict : Bool} {settled : List Settled} {x : Settled} :
    x ∈ upToFailure strict settled ↔ ∃ front, front ++ [x] <+: settled ∧
      (strict = true → ∀ y ∈ front ++ [x], y.fate.error? = none) := by
  rw [upToFailure]
  cases strict with
  | false =>
      rw [if_neg Bool.false_ne_true]
      constructor
      · intro h
        obtain ⟨front, back, rfl⟩ := List.append_of_mem h
        exact ⟨front, ⟨back, by rw [List.append_assoc]; rfl⟩, fun h => Bool.noConfusion h⟩
      · rintro ⟨front, hbegins, -⟩
        exact hbegins.subset (List.mem_append_right front List.mem_cons_self)
  | true =>
      rw [if_pos rfl]
      constructor
      · intro h
        obtain ⟨front, seen, hseen⟩ := List.append_of_mem h
        have hbegins : front ++ [x] <+: settled.takeWhile fun y => y.fate.error?.isNone :=
          ⟨seen, by rw [hseen, List.append_assoc]; rfl⟩
        refine ⟨front, hbegins.trans (List.takeWhile_prefix _), fun _ y hy => ?_⟩
        have hpass : y.fate.error?.isNone = true :=
          List.mem_takeWhile_imp (p := fun y : Settled => y.fate.error?.isNone)
            (hbegins.subset hy)
        exact Option.isNone_iff_eq_none.mp hpass
      · rintro ⟨front, ⟨back, rfl⟩, hnone⟩
        have hpass : ∀ y ∈ front ++ [x], y.fate.error?.isNone = true := fun y hy =>
          Option.isNone_iff_eq_none.mpr (hnone rfl y hy)
        rw [List.takeWhile_append_of_pos hpass]
        exact List.mem_append_left _ (List.mem_append_right front List.mem_cons_self)

/-- What a mapped list begins with is mapped from what the list begins with. -/
theorem prefix_map_iff {α β : Type} {f : α → β} {xs : List α} {front : List β} {y : β} :
    front ++ [y] <+: xs.map f ↔
      ∃ init x, init ++ [x] <+: xs ∧ front = init.map f ∧ y = f x := by
  rw [List.prefix_map_iff]
  constructor
  · rintro ⟨seen, hseen, hmap⟩
    obtain ⟨init, last, rfl, hinit, hlast⟩ := List.map_eq_append_iff.mp hmap.symm
    obtain ⟨x, rfl, rfl⟩ := List.map_eq_singleton_iff.mp hlast
    exact ⟨init, x, hseen, hinit.symm, rfl⟩
  · rintro ⟨init, x, hseen, rfl, rfl⟩
    exact ⟨init ++ [x], hseen, by rw [List.map_append, List.map_singleton]⟩

/-- What is seen of a call are its names up to the first fault. -/
theorem mem_upToFailure_settled_iff {strict : Bool} {answered : Answered} {x : Settled} :
    x ∈ upToFailure strict answered.settled ↔
      ∃ front pending, front ++ [pending] <+: answered.call.lookups ∧
        x = ⟨pending, pending.fate answered.outcome, answered.time⟩ ∧
        (strict = true → ∀ other ∈ front ++ [pending],
          (other.fate answered.outcome).error? = none) := by
  simp only [mem_upToFailure_iff, Answered.settled, prefix_map_iff, List.forall_mem_append,
    List.forall_mem_singleton]
  constructor
  · rintro ⟨_, ⟨front, pending, hbegins, rfl, rfl⟩, hnone⟩
    rw [List.forall_mem_map] at hnone
    exact ⟨front, pending, hbegins, rfl, hnone⟩
  · rintro ⟨front, pending, hbegins, rfl, hnone⟩
    refine ⟨_, ⟨front, pending, hbegins, rfl, rfl⟩, ?_⟩
    rw [List.forall_mem_map]
    exact hnone

end Batch

namespace Provider

variable {σ : Type}

/-- **What a batch gets to see** of the answers to a plan is what it gets to see of each call, since
a call that shows a fault to a strict batch is its last one. -/
theorem upToFailure_answers (p : Provider σ) (strict : Bool) (calls : List BulkCall)
    (world : World σ) :
    upToFailure strict ((p.answers strict calls world).1.flatMap (·.settled)) =
      (p.answers strict calls world).1.flatMap fun answered =>
        upToFailure strict answered.settled := by
  induction calls generalizing world with
  | nil => cases strict <;> rfl
  | cons call rest ih =>
      rcases hquiet : (p.source.fetchBulk call.names call.options).quiet world with
        ⟨outcome, after⟩
      rcases Answered.goesOn_or_ends ⟨call, outcome, after.now⟩ strict with hgo | ⟨rfl, e, he⟩
      · rw [answers_cons hquiet hgo, List.flatMap_cons, List.flatMap_cons,
          upToFailure_append _ hgo, ih, upToFailure_settled hgo]
      · rw [answers_of_fault hquiet he, List.flatMap_singleton, List.flatMap_singleton]

variable (p : Provider σ) (parameters : List (String × Overrides)) (options : BatchOptions)
  (s : State σ)

/-! ### The names that were decoded -/

/-- A batch **decodes** a name to a value at some time: the answer to one of its bulk calls came
then, it has the name, and its value could be decoded. If the batch is strict, so could the values
of the names before it in the call. -/
def Decodes (name : String) (value : ParameterValue) (time : Instant) : Prop :=
  ∃ (front names : List String) (backend : BackendOptions) (bulk : BulkFetch) (raw : RawValue),
    ⟨.bulk names backend (.ok bulk), time⟩ ∈ p.exchanges (.getByName parameters options) s ∧
    front ++ [name] <+: names ∧ bulk.values.get? name = some raw ∧
    (effective parameters options name).transform.apply name raw = .ok value ∧
    (options.strict = true → ∀ other ∈ front, ∀ found, bulk.values.get? other = some found →
      Except.failure? ((effective parameters options other).transform.apply other found) = none)

variable {p parameters options s}

/-- What is looked up is a name with its own options. -/
theorem pending_eq_of_mem_planned {call : BulkCall}
    (hcall : call ∈ p.planned parameters options s) {pending : Pending}
    (hpending : pending ∈ call.lookups) :
    pending.transform = (effective parameters options pending.name).transform.resolve pending.name ∧
      pending.key = p.singleKey pending.name (effective parameters options pending.name) := by
  obtain ⟨entry, hentry, hdeferred⟩ :=
    p.exists_of_mem_planned parameters options s hcall hpending
  obtain rfl : _ = pending := congrArg Deferred.pending hdeferred
  rw [effective, deferredOf, overridesOf_of_mem (List.mem_of_mem_filter hentry)]
  exact ⟨rfl, rfl⟩

/-- The value of a name is found if it is in the answer and can be decoded. -/
theorem fate_eq_found_iff {call : BulkCall} (hcall : call ∈ p.planned parameters options s)
    {pending : Pending} (hpending : pending ∈ call.lookups) {outcome : Except Error BulkFetch}
    {value : ParameterValue} :
    pending.fate outcome = .found value ↔ ∃ bulk raw, outcome = .ok bulk ∧
      bulk.values.get? pending.name = some raw ∧
      (effective parameters options pending.name).transform.apply pending.name raw =
        .ok value := by
  obtain ⟨htransform, -⟩ := pending_eq_of_mem_planned hcall hpending
  cases outcome with
  | error e => simp [Pending.fate]
  | ok bulk =>
      rw [Pending.fate, htransform]
      cases hget : bulk.values.get? pending.name with
      | none => simp [hget]
      | some raw =>
          simp only [Transform.apply_resolve]
          cases happly : (effective parameters options pending.name).transform.apply pending.name
            raw with
          | ok decoded => simp [hget, happly]
          | error e => simp [hget, happly]

/-- The answer to a call shows no fault for a name that it does not have, or whose value can be
decoded. -/
theorem error?_eq_none_iff {call : BulkCall} (hcall : call ∈ p.planned parameters options s)
    {pending : Pending} (hpending : pending ∈ call.lookups) {bulk : BulkFetch} :
    (pending.fate (.ok bulk)).error? = none ↔ ∀ raw, bulk.values.get? pending.name = some raw →
      Except.failure?
        ((effective parameters options pending.name).transform.apply pending.name raw) = none := by
  rw [p.failure?_of_mem_planned parameters options s hcall hpending, Option.bind_eq_none_iff]
  rfl

/-- **The names that were decoded** are those whose values the batch got to see: up to the first
failure in strict mode, and all of them otherwise. -/
theorem decodes_iff (h : errorsKey ∉ (requested parameters).names) {name : String}
    {value : ParameterValue} {time : Instant} :
    p.Decodes parameters options s name value time ↔
      ∃ x ∈ upToFailure options.strict (p.settled parameters options s),
        x.pending.name = name ∧ x.fate = .found value ∧ x.time = time := by
  have hplanned : ∀ answered ∈ p.answered parameters options s,
      answered.call ∈ p.planned parameters options s := fun answered hanswered =>
    (p.answered_prefix parameters options s).subset (List.mem_map_of_mem hanswered)
  have hseen : ∀ x, x ∈ upToFailure options.strict (p.settled parameters options s) ↔
      ∃ answered ∈ p.answered parameters options s,
        x ∈ upToFailure options.strict answered.settled := by
    intro x
    rw [settled, answered, upToFailure_answers, List.mem_flatMap]
  rw [Decodes, exchanges_getByName h]
  constructor
  · rintro ⟨front, names, backend, bulk, raw, hexchange, hbegins, hget, happly, hclean⟩
    obtain ⟨⟨call, outcome, came⟩, hanswered, hsame⟩ := List.mem_map.mp hexchange
    simp only [Answered.exchange, Exchange.mk.injEq, Answer.bulk.injEq] at hsame
    obtain ⟨⟨rfl, rfl, rfl⟩, rfl⟩ := hsame
    have hcall : call ∈ p.planned parameters options s := hplanned _ hanswered
    obtain ⟨before, pending, hlookups, rfl, rfl⟩ := prefix_map_iff.mp hbegins
    have hpending : pending ∈ call.lookups :=
      hlookups.subset (List.mem_append_right before List.mem_cons_self)
    have hfate : pending.fate (.ok bulk) = .found value :=
      (fate_eq_found_iff hcall hpending).mpr ⟨bulk, raw, rfl, hget, happly⟩
    refine ⟨⟨pending, pending.fate (.ok bulk), came⟩, (hseen _).mpr ⟨_, hanswered,
      mem_upToFailure_settled_iff.mpr ⟨before, pending, hlookups, rfl, fun hstrict => ?_⟩⟩,
      rfl, hfate, rfl⟩
    rw [List.forall_mem_append, List.forall_mem_singleton, hfate]
    refine ⟨fun other hother => ?_, rfl⟩
    exact (error?_eq_none_iff hcall (hlookups.subset (List.mem_append_left _ hother))).mpr
      (hclean hstrict other.name (List.mem_map_of_mem hother))
  · rintro ⟨x, hx, rfl, hfate, rfl⟩
    obtain ⟨answered, hanswered, hx⟩ := (hseen x).mp hx
    obtain ⟨front, pending, hlookups, rfl, hnone⟩ := mem_upToFailure_settled_iff.mp hx
    have hcall : answered.call ∈ p.planned parameters options s := hplanned _ hanswered
    have hpending : pending ∈ answered.call.lookups :=
      hlookups.subset (List.mem_append_right front List.mem_cons_self)
    obtain ⟨bulk, raw, houtcome, hget, happly⟩ := (fate_eq_found_iff hcall hpending).mp hfate
    rw [houtcome] at hnone
    refine ⟨front.map (·.name), answered.call.names, answered.call.options, bulk, raw,
      List.mem_map.mpr ⟨answered, hanswered, by rw [Answered.exchange, houtcome]⟩,
      prefix_map_iff.mpr ⟨front, pending, hlookups, rfl, rfl⟩, hget, happly, fun hstrict => ?_⟩
    rw [List.forall_mem_map]
    intro other hother
    exact (error?_eq_none_iff hcall (hlookups.subset (List.mem_append_left _ hother))).mp
      (hnone hstrict other (List.mem_append_left _ hother))

/-! ### The cache after a batch -/

/-- What was settled of a name stands under the key of its look-up. -/
theorem key_of_mem_settled {x : Settled} (hx : x ∈ p.settled parameters options s) :
    x.pending.key = p.singleKey x.pending.name (effective parameters options x.pending.name) := by
  obtain ⟨answered, hanswered, hx⟩ := List.mem_flatMap.mp hx
  obtain ⟨pending, hpending, rfl⟩ := List.mem_map.mp hx
  have hcall := (p.answered_prefix parameters options s).subset (List.mem_map_of_mem hanswered)
  exact (pending_eq_of_mem_planned hcall hpending).2

/-- No key is seen twice, even if the batch ends early, since what was settled until then is a start
of all that could be settled. -/
theorem seen_keys_nodup (p : Provider σ) (parameters : List (String × Overrides))
    (options : BatchOptions) (s : State σ) :
    ((upToFailure options.strict (p.settled parameters options s)).map
      (·.pending.key)).Nodup :=
  (p.settled_keys_nodup parameters options s).sublist ((upToFailure_sublist _ _).map _)

/-- What is decoded is kept under the key of its name. -/
theorem find?_of_decodes {name : String} {value : ParameterValue} {time : Instant}
    (hdecodes : p.Decodes parameters options s name value time) :
    (p.getByName parameters options s).2.cache.find?
      (p.singleKey name (effective parameters options name)) = some ⟨.value value, time⟩ := by
  have hreserved : errorsKey ∉ (requested parameters).names := by
    intro h
    obtain ⟨_, _, _, _, _, hexchange, -⟩ := hdecodes
    rw [exchanges_getByName_of_reserved h] at hexchange
    exact List.not_mem_nil hexchange
  obtain ⟨x, hx, rfl, hfate, rfl⟩ := (decodes_iff hreserved).mp hdecodes
  rw [(getByName_eq hreserved).2.2, ← key_of_mem_settled ((upToFailure_sublist _ _).subset hx),
    find?_foldl_settle_of_mem _ _ (p.seen_keys_nodup parameters options s) hx, hfate]
  rfl

/-- Every other key finds what it found before. -/
theorem find?_of_not_decodes {key : CacheKey}
    (hothers : ∀ name value time, p.Decodes parameters options s name value time →
      p.singleKey name (effective parameters options name) ≠ key) :
    (p.getByName parameters options s).2.cache.find? key = s.cache.find? key := by
  by_cases hreserved : errorsKey ∈ (requested parameters).names
  · rw [getByName_of_reserved hreserved]
  rw [(getByName_eq hreserved).2.2]
  by_cases hsettled : ∃ x ∈ upToFailure options.strict (p.settled parameters options s),
      x.pending.key = key
  · obtain ⟨x, hx, rfl⟩ := hsettled
    rw [find?_foldl_settle_of_mem _ _ (p.seen_keys_nodup parameters options s) hx]
    cases hfate : x.fate with
    | found value =>
        have hdecodes := (decodes_iff hreserved).mpr ⟨x, hx, rfl, hfate, rfl⟩
        exact absurd (key_of_mem_settled ((upToFailure_sublist _ _).subset hx)).symm
          (hothers x.pending.name value x.time hdecodes)
    | missing => rfl
    | failed e => rfl
  · exact find?_foldl_settle _ _ _ fun x hx hkey => hsettled ⟨x, hx, hkey⟩

/-- **What a batch stores.** However a batch ends, each name that it decoded has the decoded value
in the cache, stamped with the time of its answer, and every other key finds what it found before:
those of the names that were not decoded in particular. -/
theorem getByName_stores (p : Provider σ) (parameters : List (String × Overrides))
    (options : BatchOptions) (s : State σ) :
    (∀ name value time, p.Decodes parameters options s name value time →
      (p.getByName parameters options s).2.cache.find?
        (p.singleKey name (effective parameters options name)) = some ⟨.value value, time⟩) ∧
    (∀ key, (∀ name value time, p.Decodes parameters options s name value time →
        p.singleKey name (effective parameters options name) ≠ key) →
      (p.getByName parameters options s).2.cache.find? key = s.cache.find? key) ∧
    ∀ name, (∀ value time, ¬ p.Decodes parameters options s name value time) →
      (p.getByName parameters options s).2.cache.find?
          (p.singleKey name (effective parameters options name)) =
        s.cache.find? (p.singleKey name (effective parameters options name)) := by
  refine ⟨fun name value time => find?_of_decodes, fun key => find?_of_not_decodes,
    fun name hname => find?_of_not_decodes fun other value time hdecodes hkey => ?_⟩
  obtain rfl : other = name := (CacheKey.single_inj.mp hkey).2.1
  exact hname value time hdecodes

end Provider

end CachedParameters
