import CachedParameters.Proofs.Provider.Recorded

/-!
# What a batch records

A batch records how the cache was asked for every name before it makes a call. Then it records its
calls one after another, each with the names whose values cannot be decoded. The values are decoded
by the transforms that were put down with the pending names; those are the ones that the request
gives to the names, and so all of this can be told by the calls that the source sees.

## Main results

- `Provider.takeIn_recorded`: how the cache was asked.
- `Provider.settle_recorded`: the names of a call whose values cannot be decoded.
- `Provider.runPlan_recorded`: the calls of a plan, one after another.
- `Provider.getByName_recorded`: what a batch records.
-/

namespace CachedParameters

namespace Provider

open Batch

variable {σ : Type} (p : Provider σ)

/-- **The intake records how the cache was asked for every name**, in the order of the names. -/
theorem takeIn_recorded (options : BatchOptions) (intake : Intake)
    (entries : List (String × Overrides)) (s : State σ) :
    recorded (p.takeIn options intake entries s).2.log =
      recorded s.log ++ entries.map fun entry =>
        ⟨p.source.name, .getByName,
          consulted options.forceFetch (p.served? options s entry).isSome, entry.1, none⟩ := by
  induction entries generalizing intake s with
  | nil => exact (List.append_nil _).symm
  | cons entry rest ih =>
      rw [List.map_cons, List.append_cons]
      cases h : p.served? options s entry with
      | some value =>
          rw [takeIn_of_served h]
          refine (ih _ _).trans ?_
          rw [record_recorded]
          rfl
      | none =>
          rw [takeIn_of_missed h]
          refine (ih _ _).trans ?_
          rw [record_recorded]
          rfl

/-- **Settling the names of a call records those whose values cannot be decoded.** -/
theorem settle_recorded (strict : Bool) (found : Listing) (transform : String → Transform)
    (result : BatchResult) (lookups : List Pending)
    (hlookups : ∀ pending ∈ lookups,
      pending.transform = (transform pending.name).resolve pending.name) (s : State σ) :
    recorded (p.settle strict found result lookups s).2.log =
      recorded s.log ++
        (undecoded strict (fun name => (transform name).apply name)
          (found.among (lookups.map (·.name)))).map
            fun name => ⟨p.source.name, .getByName, .transformFailed, name, none⟩ := by
  induction lookups generalizing result s with
  | nil => exact (List.append_nil _).symm
  | cons pending rest ih =>
      obtain ⟨hpending, hrest⟩ := List.forall_mem_cons.mp hlookups
      rw [Provider.settle, List.map_cons, Listing.among, List.filterMap_cons]
      cases hget : found.get? pending.name with
      | none => exact ih _ hrest s
      | some raw =>
          rw [Option.map_some, hpending]
          dsimp only
          rw [Transform.apply_resolve, undecoded]
          cases (transform pending.name).apply pending.name raw with
          | ok value => exact ih _ hrest _
          | error e =>
              have hrecorded := p.record_recorded .getByName .transformFailed pending.name s
              cases strict with
              | true => exact hrecorded
              | false =>
                  refine (ih _ hrest _).trans ?_
                  rw [hrecorded, List.append_assoc]
                  rfl

section Plan

variable {parameters : List (String × Overrides)} {options : BatchOptions}

/-- The names of a call are decoded as the request says. -/
def DecodesAs (request : Request) (call : BulkCall) : Prop :=
  ∀ pending ∈ call.lookups,
    pending.transform = (request.transform pending.name).resolve pending.name

/-- One call records how it went, and its names whose values cannot be decoded. -/
theorem runCall_recorded (arrangement : Arrangement) (result : BatchResult) {call : BulkCall}
    (hcall : DecodesAs (.getByName parameters options) call) {s : State σ}
    {outcome : Except Error BulkFetch} {world : World σ}
    (hquiet : (p.source.fetchBulk call.names call.options).quiet s.world = (outcome, world)) :
    recorded (p.runCall options.strict result call s).2.log =
      recorded s.log ++ (Request.getByName parameters options).callEvents p.source.name arrangement
        s.world.now (Answered.exchange ⟨call, outcome, world.now⟩) := by
  obtain ⟨after, hfetch, -⟩ := p.fetch_eq .getByName (",".intercalate call.names)
    (p.source.fetchBulk call.names call.options) s
  have hrecorded := p.fetch_recorded .getByName (",".intercalate call.names)
    (p.source.fetchBulk call.names call.options) s
  rw [hfetch, hquiet] at hrecorded
  rw [runCall, hfetch, hquiet]
  cases outcome with
  | error e => exact hrecorded
  | ok bulk =>
      have hsettled :=
        p.settle_recorded options.strict bulk.values _ result call.lookups hcall after
      rw [hrecorded, List.append_assoc] at hsettled
      exact hsettled

/-- **The calls of a plan are recorded one after another**, as far as they are made. -/
theorem runPlan_recorded (arrangement : Arrangement) (result : BatchResult) {calls : List BulkCall}
    (hcalls : ∀ call ∈ calls, DecodesAs (.getByName parameters options) call) (s : State σ) :
    recorded (p.runPlan options.strict result calls s).2.log =
      recorded s.log ++ (Request.getByName parameters options).courseEvents p.source.name
        arrangement s.world.now
        ((p.answers options.strict calls s.world).1.map (·.exchange)) := by
  induction calls generalizing result s with
  | nil => exact (List.append_nil _).symm
  | cons call rest ih =>
      obtain ⟨hcall, hrest⟩ := List.forall_mem_cons.mp hcalls
      rcases hquiet : (p.source.fetchBulk call.names call.options).quiet s.world with
        ⟨outcome, world⟩
      have hfirst := p.runCall_recorded arrangement result hcall hquiet
      obtain ⟨hreply, hworld, -⟩ := p.runCall_eq options.strict result hquiet
      rw [runPlan_cons]
      generalize p.runCall options.strict result call s = ran at hfirst hreply hworld ⊢
      obtain ⟨reply, next⟩ := ran
      dsimp only at hfirst hreply hworld
      rcases Answered.goesOn_or_ends ⟨call, outcome, world.now⟩ options.strict with
        hgo | ⟨hstrict, e, he⟩
      · -- The next call begins when this one was answered, since decoding takes no time.
        rw [hreply, conclude_of_none hgo, answers_cons hquiet hgo, List.map_cons,
          Request.courseEvents, ← List.append_assoc, ← hfirst, ← hworld]
        exact ih _ hrest next
      · rw [hreply, hstrict, answers_of_fault hquiet he, he, List.map_singleton,
          Request.courseEvents, Request.courseEvents, List.append_nil, ← hfirst]
        rfl

end Plan

/-- The look-ups of a batch are those of its intake. -/
theorem lookUpEvents_getByName {p : Provider σ} {parameters : List (String × Overrides)}
    {options : BatchOptions} {s : State σ} (h : errorsKey ∉ (requested parameters).names) :
    ((requested parameters).entries.map fun entry =>
        (⟨p.source.name, .getByName,
          consulted options.forceFetch (p.served? options s entry).isSome, entry.1, none⟩ :
            ParameterEvent)) =
      p.lookUpEvents (.getByName parameters options) s := by
  rw [lookUpEvents, Request.lookedUp, if_neg h, Dict.names, List.map_map]
  refine List.map_congr_left fun entry hentry => ?_
  have hserves : p.serves (.getByName parameters options) entry.1 s =
      (p.served? options s entry).isSome := by
    rw [serves, overridesOf_of_mem hentry, served?]
  rw [Function.comp_apply, hserves]
  rfl

/-- **What a batch records**: how the cache answered for each name, in the order of the names, and
behind that one event for each call, with those for what could not be decoded right behind it. -/
theorem getByName_recorded (arrangement : Arrangement) (parameters : List (String × Overrides))
    (options : BatchOptions) (s : State σ) :
    recorded (p.getByName parameters options s).2.log =
      recorded s.log ++ p.events arrangement (.getByName parameters options) s := by
  rw [events]
  by_cases h : errorsKey ∈ (requested parameters).names
  · rw [getByName_of_reserved h, exchanges_getByName_of_reserved h, lookUpEvents,
      Request.lookedUp, if_pos h]
    exact (List.append_nil _).symm
  · have hcalls : ∀ call ∈ p.planned parameters options s,
        DecodesAs (.getByName parameters options) call := by
      intro call hcall pending hpending
      obtain ⟨⟨name, overrides⟩, hentry, hdeferred⟩ :=
        p.exists_of_mem_planned parameters options s hcall hpending
      obtain rfl : _ = pending := congrArg Deferred.pending hdeferred
      have hoverrides : overridesOf parameters name = overrides :=
        overridesOf_of_mem (List.mem_of_mem_filter hentry)
      rw [deferredOf, Request.transform, hoverrides]
    obtain ⟨hworld, -⟩ := p.takeIn_state options {} (requested parameters).entries s
    have hasked := p.takeIn_recorded options {} (requested parameters).entries s
    have hplan := p.runPlan_recorded arrangement
      (p.takeIn options {} (requested parameters).entries s).1.served hcalls
      (p.takeIn options {} (requested parameters).entries s).2
    rw [hasked, lookUpEvents_getByName h, hworld, List.append_assoc] at hplan
    rw [getByName_of_allowed h, exchanges_getByName h]
    exact hplan

end Provider

end CachedParameters
