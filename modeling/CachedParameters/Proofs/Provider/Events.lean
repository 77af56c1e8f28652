import CachedParameters.Proofs.Batch.Recorded
import CachedParameters.Proofs.Provider.Listings

/-!
# The events of a run

Requests record what `Provider.events` says, and so a run records what its requests do, one after
another. In particular the calls that are recorded are the calls that are made: none is forgotten
and none is told twice. The calls that are made in a run are what its source sees when the same run
is made by the watched provider, which being watched does not change.

A run may decode every listing in an order of its own, which is the order in which it records the
entries that cannot be decoded. It does not matter for anything else that is recorded, nor for the
calls.

## Main results

- `Provider.serveIn_recorded`: what a request records.
- `Provider.run_recorded`: what a run records.
- `Provider.run_watch`: what the source sees of a run.
- `Provider.run_calls`: the calls that a run records are those that its source sees.
- `Provider.recordsTruly`: all of this in one place.
-/

namespace CachedParameters

open Batch

/-- Whether an activity is a call of the source. -/
def Activity.isCall : Activity → Bool
  | .fetched | .fetchFailed => true
  | .hit | .miss | .bypass | .transformFailed | .cleared => false

/-- The calls that events tell of: how they went, and what they asked for. -/
def recordedCalls (events : List ParameterEvent) : List (Activity × String) :=
  (events.filter (·.activity.isCall)).map fun event => (event.activity, event.parameter)

theorem recordedCalls_append (events more : List ParameterEvent) :
    recordedCalls (events ++ more) = recordedCalls events ++ recordedCalls more := by
  rw [recordedCalls, List.filter_append, List.map_append]
  rfl

theorem recordedCalls_eq_nil {events : List ParameterEvent}
    (h : ∀ event ∈ events, event.activity.isCall = false) : recordedCalls events = [] := by
  rw [recordedCalls, List.filter_eq_nil_iff.mpr fun event hmem => by rw [h event hmem]; decide,
    List.map_nil]

/-- A call as it is recorded: how it went, and the name, path or names that it was for. -/
def Exchange.call (exchange : Exchange) : Activity × String := (exchange.activity, exchange.label)

/-- The names or the path that a call asks for. -/
def Exchange.names (exchange : Exchange) : List String :=
  match exchange.answer with
  | .one name _ _ => [name]
  | .many path _ _ => [path]
  | .bulk names _ _ => names

theorem Exchange.isCall_activity (exchange : Exchange) : exchange.activity.isCall = true := by
  rw [activity]
  split <;> rename_i outcome _ <;> cases outcome <;> rfl

/-- What is recorded when the cache was asked tells whether it was passed over, and else whether it
served something. -/
theorem Provider.consulted_iff (forceFetch served : Bool) :
    (consulted forceFetch served = .bypass ↔ forceFetch = true) ∧
      (consulted forceFetch served = .hit ↔ forceFetch = false ∧ served = true) ∧
      (consulted forceFetch served = .miss ↔ forceFetch = false ∧ served = false) := by
  cases forceFetch <;> cases served <;> decide

/-! ### Calls that are recorded -/

namespace Request

variable (request : Request) (source : String) (arrangement : Arrangement)

/-- One call is recorded of a call. -/
theorem recordedCalls_callEvents (start : Instant) (exchange : Exchange) :
    recordedCalls (request.callEvents source arrangement start exchange) = [exchange.call] := by
  have hnone : recordedCalls ((undecoded request.endsUndecoded
      (fun name => (request.transform name).apply name) (exchange.brought arrangement)).map
        fun name => ⟨source, request.operation, .transformFailed, name, none⟩) = [] :=
    recordedCalls_eq_nil fun event hmem => by
      obtain ⟨name, -, rfl⟩ := List.mem_map.mp hmem
      rfl
  rw [callEvents, ← List.singleton_append, recordedCalls_append, hnone, List.append_nil,
    recordedCalls, List.filter_singleton, exchange.isCall_activity]
  rfl

/-- The calls of a course are recorded in order. -/
theorem recordedCalls_courseEvents (start : Instant) (exchanges : List Exchange) :
    recordedCalls (request.courseEvents source arrangement start exchanges) =
      exchanges.map (·.call) := by
  induction exchanges generalizing start with
  | nil => rfl
  | cons exchange rest ih =>
      rw [courseEvents, recordedCalls_append, recordedCalls_callEvents, ih]
      rfl

end Request

namespace Provider

variable {σ : Type} (p : Provider σ)

/-- Looking up is no call. -/
theorem recordedCalls_lookUpEvents (request : Request) (s : State σ) :
    recordedCalls (p.lookUpEvents request s) = [] := by
  refine recordedCalls_eq_nil fun event hmem => ?_
  obtain ⟨name, -, rfl⟩ := List.mem_map.mp hmem
  dsimp only
  cases request.forceFetch <;> cases p.serves request name s <;> rfl

/-- The calls that a request records are those that it makes. -/
theorem recordedCalls_events (arrangement : Arrangement) (request : Request) (s : State σ) :
    recordedCalls (p.events arrangement request s) = (p.exchanges request s).map (·.call) := by
  have hcourse : recordedCalls (p.lookUpEvents request s ++
      request.courseEvents p.source.name arrangement s.world.now (p.exchanges request s)) =
      (p.exchanges request s).map (·.call) := by
    rw [recordedCalls_append, recordedCalls_lookUpEvents, Request.recordedCalls_courseEvents]
    rfl
  cases request with
  | clear => rfl
  | get | getMultiple | getByName => exact hcourse

/-! ### One request -/

/-- **What a request records**, with a listing decoded in some order. -/
theorem serveIn_recorded (arrangement : Arrangement) (request : Request) (s : State σ) :
    recorded (p.serveIn arrangement request s).2.log =
      recorded s.log ++ p.events arrangement request s := by
  cases request with
  | get name options =>
      rw [events_get, ← inquire_recorded, ← get_eq_inquire]
      rfl
  | getMultiple path options =>
      rw [events_getMultiple, ← inquire_recorded, ← getMultipleIn_eq_inquire]
      rfl
  | getByName parameters options => exact p.getByName_recorded arrangement parameters options s
  | clear => exact p.record_recorded .clear .cleared "*" { s with cache := .empty }

/-- Being watched changes nothing, and the order in which a listing is decoded does not change what
is seen. -/
theorem serveIn_watch (arrangement : Arrangement) (request : Request) (seen : List Exchange)
    (s : State σ) :
    p.watched.serveIn arrangement request (s.watch seen) =
      ((p.serveIn arrangement request s).1,
        (p.serveIn arrangement request s).2.watch (seen ++ p.exchanges request s)) := by
  cases request with
  | get name options => exact p.serve_watch (.get name options) seen s
  | getByName parameters options => exact p.serve_watch (.getByName parameters options) seen s
  | clear => exact p.serve_watch .clear seen s
  | getMultiple path options =>
      rw [serveIn, serveIn, getMultipleIn_eq_inquire, getMultipleIn_eq_inquire, inquire_watch,
        p.exchanges_getMultiple arrangement]
      rfl

/-- What a call asks for is not served by the cache. -/
theorem serves_eq_false_of_mem_exchanges {request : Request} {s : State σ} {exchange : Exchange}
    (hmem : exchange ∈ p.exchanges request s) {name : String} (hname : name ∈ exchange.names) :
    p.serves request name s = false := by
  cases request with
  | clear => exact absurd hmem List.not_mem_nil
  | get other options =>
      rw [exchanges_get] at hmem
      obtain ⟨hunknown, rfl⟩ := eq_of_mem_calls hmem
      obtain rfl := List.mem_singleton.mp hname
      exact congrArg Option.isSome hunknown
  | getMultiple path options =>
      rw [p.exchanges_getMultiple .byName] at hmem
      obtain ⟨hunknown, rfl⟩ := eq_of_mem_calls hmem
      obtain rfl := List.mem_singleton.mp hname
      exact congrArg Option.isSome hunknown
  | getByName parameters options =>
      by_cases h : errorsKey ∈ (requested parameters).names
      · rw [exchanges_getByName_of_reserved h] at hmem
        exact absurd hmem List.not_mem_nil
      · rw [exchanges_getByName h] at hmem
        obtain ⟨answered, hanswered, rfl⟩ := List.mem_map.mp hmem
        obtain ⟨pending, hpending, rfl⟩ := List.mem_map.mp hname
        have hcall : answered.call ∈ p.planned parameters options s :=
          (p.answered_prefix parameters options s).subset (List.mem_map_of_mem hanswered)
        obtain ⟨⟨name, overrides⟩, hentry, hdeferred⟩ :=
          p.exists_of_mem_planned parameters options s hcall hpending
        obtain rfl : _ = pending := congrArg Deferred.pending hdeferred
        obtain ⟨hrequested, hmissed⟩ := List.mem_filter.mp hentry
        have hoverrides : overridesOf parameters name = overrides := overridesOf_of_mem hrequested
        rw [serves, deferredOf, hoverrides]
        exact Option.isSome_eq_false_iff.mpr hmissed

/-! ### Runs -/

/-- A request of a run, with the order in which it decodes a listing and the state that it is served
in. -/
structure Moment (σ : Type) where
  arrangement : Arrangement
  request : Request
  state : State σ

/-- The requests of a run from a state. -/
def moments (p : Provider σ) : State σ → List (Arrangement × Step σ) → List (Moment σ)
  | _, [] => []
  | s, (arrangement, .serve request) :: rest =>
    ⟨arrangement, request, s⟩ :: p.moments (p.serveIn arrangement request s).2 rest
  | s, (_, .backend change) :: rest =>
    p.moments { s with world.backend := change s.world.backend } rest
  | s, (_, .clock now) :: rest => p.moments { s with world.now := now } rest

/-- **What a run records** is what its requests do, one after another. Changes of the backend and of
the clock leave no events. -/
theorem run_recorded (s : State σ) (steps : List (Arrangement × Step σ)) :
    recorded (p.machineIn.run s steps).log =
      recorded s.log ++ (p.moments s steps).flatMap fun moment =>
        p.events moment.arrangement moment.request moment.state := by
  induction steps generalizing s with
  | nil => exact (List.append_nil _).symm
  | cons first rest ih =>
      obtain ⟨arrangement, step⟩ := first
      cases step with
      | serve request =>
          rw [moments, List.flatMap_cons, ← List.append_assoc, ← serveIn_recorded]
          exact ih _
      | backend change => exact ih _
      | clock now => exact ih _

end Provider

/-- A step of a run that is watched. -/
def Step.watched {σ : Type} : Step σ → Step (Watched σ)
  | .serve request => .serve request
  | .backend change => .backend fun watched => { watched with backend := change watched.backend }
  | .clock now => .clock now

namespace Provider

variable {σ : Type} (p : Provider σ)

/-- What the source sees of a run from a state. -/
def seenIn (s : State σ) (steps : List (Arrangement × Step σ)) : List Exchange :=
  (p.watched.machineIn.run (s.watch [])
    (steps.map fun step => (step.1, step.2.watched))).world.backend.seen

/-- **What the source sees of a run** are the calls that its requests make, one request after
another, each in the state that the run is in then. -/
theorem run_watch (seen : List Exchange) (s : State σ) (steps : List (Arrangement × Step σ)) :
    p.watched.machineIn.run (s.watch seen) (steps.map fun step => (step.1, step.2.watched)) =
      (p.machineIn.run s steps).watch
        (seen ++ (p.moments s steps).flatMap fun moment =>
          p.exchanges moment.request moment.state) := by
  induction steps generalizing seen s with
  | nil =>
      rw [moments, List.flatMap_nil, List.append_nil]
      rfl
  | cons first rest ih =>
      obtain ⟨arrangement, step⟩ := first
      cases step with
      | serve request =>
          have hfirst : p.watched.stepIn (s.watch seen) (arrangement, .serve request) =
              (p.serveIn arrangement request s).2.watch (seen ++ p.exchanges request s) :=
            congrArg Prod.snd (p.serveIn_watch arrangement request seen s)
          have hrest := ih (seen ++ p.exchanges request s) (p.serveIn arrangement request s).2
          rw [← hfirst] at hrest
          rw [moments, List.flatMap_cons, ← List.append_assoc]
          exact hrest
      | backend change => exact ih seen { s with world.backend := change s.world.backend }
      | clock now => exact ih seen { s with world.now := now }

/-- **The calls that a run records are those that its source sees**, in the same order and with the
same outcomes, whatever order the listings were decoded in. -/
theorem run_calls (s : State σ) (steps : List (Arrangement × Step σ)) :
    recordedCalls (recorded (p.machineIn.run s steps).log) =
      recordedCalls (recorded s.log) ++ (p.seenIn s steps).map (·.call) := by
  have hseen : p.seenIn s steps = (p.moments s steps).flatMap fun moment =>
      p.exchanges moment.request moment.state := by
    rw [seenIn, run_watch]
    rfl
  rw [run_recorded, recordedCalls_append, hseen]
  congr 1
  -- Request by request, whatever states they were served in.
  induction p.moments s steps with
  | nil => rfl
  | cons moment rest ih =>
      rw [List.flatMap_cons, recordedCalls_append, recordedCalls_events, ih, List.flatMap_cons,
        List.map_append]

/-! ### The log -/

/-- How the cache was asked is recorded as it was: whether it was passed over, and else whether it
served what was looked up. -/
theorem lookUpEvents_iff {request : Request} {s : State σ} {event : ParameterEvent}
    (hmem : event ∈ p.lookUpEvents request s) :
    (event.activity = .bypass ↔ request.forceFetch = true) ∧
      (event.activity = .hit ↔
        request.forceFetch = false ∧ p.serves request event.parameter s = true) ∧
      (event.activity = .miss ↔
        request.forceFetch = false ∧ p.serves request event.parameter s = false) := by
  obtain ⟨name, -, rfl⟩ := List.mem_map.mp hmem
  exact consulted_iff ..

/-- What the log of a provider tells of its requests and runs. -/
structure RecordsTruly (p : Provider σ) : Prop where
  /-- In the order of the sub-keys, a request is served as the provider serves it. -/
  usual (request : Request) (s : State σ) : p.serveIn .byName request s = p.serve request s
  /-- In no order does the source see other calls. -/
  sees (arrangement : Arrangement) (request : Request) (s : State σ) :
    (p.watched.serveIn arrangement request (s.watch [])).2.world.backend.seen =
      p.exchanges request s
  /-- A request records its events behind the earlier ones, and nothing else: first how the cache
  was asked, then call by call how that went and which of its values could not be decoded. -/
  request (arrangement : Arrangement) (request : Request) (s : State σ) :
    recorded (p.serveIn arrangement request s).2.log =
      recorded s.log ++ p.events arrangement request s
  /-- How the cache was asked is recorded as it was. -/
  lookUps (request : Request) (s : State σ) (event : ParameterEvent) :
    event ∈ p.lookUpEvents request s →
      (event.activity = .bypass ↔ request.forceFetch = true) ∧
      (event.activity = .hit ↔
        request.forceFetch = false ∧ p.serves request event.parameter s = true) ∧
      (event.activity = .miss ↔
        request.forceFetch = false ∧ p.serves request event.parameter s = false)
  /-- No call asks for what the cache serves. -/
  misses (request : Request) (s : State σ) (exchange : Exchange) (name : String) :
    exchange ∈ p.exchanges request s → name ∈ exchange.names → p.serves request name s = false
  /-- A batch that bears the reserved name records nothing. -/
  refused (arrangement : Arrangement) (parameters : List (String × Overrides))
    (options : BatchOptions) (s : State σ) :
    errorsKey ∈ parameters.map (·.1) →
      p.events arrangement (.getByName parameters options) s = []
  /-- A run records what its requests do, one after another. -/
  run (s : State σ) (steps : List (Arrangement × Step σ)) :
    recorded (p.machineIn.run s steps).log =
      recorded s.log ++ (p.moments s steps).flatMap fun moment =>
        p.events moment.arrangement moment.request moment.state
  /-- The calls that a run records are those that its source sees, in their order. -/
  calls (s : State σ) (steps : List (Arrangement × Step σ)) :
    recordedCalls (recorded (p.machineIn.run s steps).log) =
      recordedCalls (recorded s.log) ++ (p.seenIn s steps).map (·.call)
  /-- A run from the start records as many calls as its source sees. -/
  count (start : World σ) (steps : List (Arrangement × Step σ)) :
    ((recorded (p.runIn start steps).log).filter (·.activity.isCall)).length =
      (p.seenIn { world := start } steps).length

/-- **The log tells the truth about the cache and the source.** -/
theorem recordsTruly (p : Provider σ) : p.RecordsTruly where
  usual request s := by cases request <;> rfl
  sees arrangement request s := by
    rw [serveIn_watch]
    rfl
  request := p.serveIn_recorded
  lookUps request s event hmem := p.lookUpEvents_iff hmem
  misses request s exchange name hmem hname := p.serves_eq_false_of_mem_exchanges hmem hname
  refused arrangement parameters options s hreserved := by
    have h : errorsKey ∈ (requested parameters).names := mem_requested.mpr hreserved
    rw [events, exchanges_getByName_of_reserved h, lookUpEvents, Request.lookedUp, if_pos h]
    rfl
  run := p.run_recorded
  calls := p.run_calls
  count start steps := by
    have hcalls := congrArg List.length (p.run_calls { world := start } steps)
    rw [recordedCalls, List.length_map, List.length_append, List.length_map] at hcalls
    exact hcalls.trans (Nat.zero_add _)

end Provider

end CachedParameters
