import CachedParameters.Proofs.Batch.Modes

/-!
# What a provider records

A provider tells of its work in events, each a `ProviderOperation` with a `ProviderActivity`. What a
request records can be said without looking into its steps: an event for everything that is looked
up, then for every call of the source an event that says how the call went and one for every value
of it that cannot be decoded. `Provider.events` says it by what the cache serves and by the calls
that the source sees, and this module shows it of the look-ups of a name and of a path.

What else is told, why a call failed and the notes of the source, is left out by `recorded`.

## Main results

- `Provider.fetch_recorded`: a fetch records one event.
- `Provider.inquire_recorded`: what an inquiry records.
- `Provider.events_get`, `Provider.events_getMultiple`: so does a look-up of a name or of a path.
-/

namespace CachedParameters

open Batch

/-- The events of providers among everything that was told. -/
def recorded (log : List Event) : List ParameterEvent :=
  log.filterMap fun
    | .parameter event => some event
    | .callFailed .. | .note _ => none

theorem recorded_append (log more : List Event) :
    recorded (log ++ more) = recorded log ++ recorded more := List.filterMap_append

theorem recorded_notes (notes : List Note) : recorded (notes.map .note) = [] := by
  rw [recorded, List.filterMap_map]
  exact List.filterMap_eq_nil_iff.mpr fun _ _ => rfl

/-! ### Calls -/

/-- How a call went, as an activity: it fetched something, or it failed. -/
def fetchActivity {α : Type} : Except Error α → Activity
  | .ok _ => .fetched
  | .error _ => .fetchFailed

/-- The values of a listing under some names, in the order of the names. -/
def Listing.among (listing : Listing) (names : List String) : List (String × RawValue) :=
  names.filterMap fun name => (listing.get? name).map fun raw => (name, raw)

namespace Exchange

def activity (exchange : Exchange) : Activity :=
  match exchange.answer with
  | .one _ _ outcome => fetchActivity outcome
  | .many _ _ outcome => fetchActivity outcome
  | .bulk _ _ outcome => fetchActivity outcome

/-- What the call asked for, as events name it: a name, a path, or the names of a bulk with commas
between them. -/
def label (exchange : Exchange) : String :=
  match exchange.answer with
  | .one name _ _ => name
  | .many path _ _ => path
  | .bulk names _ _ => ",".intercalate names

/-- The values that the call brought, in the order in which they are decoded: those of a bulk call
as they were asked for, and those of a listing in some order. -/
def brought (arrangement : Arrangement) (exchange : Exchange) : List (String × RawValue) :=
  match exchange.answer with
  | .one name _ (.ok raw) => [(name, raw)]
  | .many _ _ (.ok listing) => arrangement.entries listing
  | .bulk names _ (.ok bulk) => bulk.values.among names
  | .one _ _ (.error _) | .many _ _ (.error _) | .bulk _ _ (.error _) => []

end Exchange

/-! ### Requests -/

namespace Request

/-- What a provider is asked to do by a request. -/
def operation : Request → Operation
  | .get .. => .get
  | .getMultiple .. => .getMultiple
  | .getByName .. => .getByName
  | .clear => .clear

/-- What a request looks up: a name, a path, or names in ascending order. A batch that is refused
looks up nothing. -/
def lookedUp : Request → List String
  | .get name _ => [name]
  | .getMultiple path _ => [path]
  | .getByName parameters _ =>
    if errorsKey ∈ (Provider.requested parameters).names then []
    else (Provider.requested parameters).names
  | .clear => []

/-- Whether a request passes over the cache. -/
def forceFetch : Request → Bool
  | .get _ options | .getMultiple _ options => options.forceFetch
  | .getByName _ options => options.forceFetch
  | .clear => false

/-- Whether a value that cannot be decoded ends a request. -/
def endsUndecoded : Request → Bool
  | .get .. => true
  | .getMultiple _ options => options.strict
  | .getByName _ options => options.strict
  | .clear => false

/-- How the value of a name is decoded for a request. -/
def transform : Request → String → Transform
  | .get _ options, _ | .getMultiple _ options, _ => options.transform
  | .getByName parameters options, name => (options.forName (overridesOf parameters name)).transform
  | .clear, _ => .plain

/-- What is recorded of a call that was made at `start`: how it went and how long it took, and then
the values of it that cannot be decoded. -/
def callEvents (request : Request) (source : String) (arrangement : Arrangement) (start : Instant)
    (exchange : Exchange) : List ParameterEvent :=
  ⟨source, request.operation, exchange.activity, exchange.label,
      some (exchange.time.since start)⟩ ::
    (undecoded request.endsUndecoded (fun name => (request.transform name).apply name)
        (exchange.brought arrangement)).map
      fun name => ⟨source, request.operation, .transformFailed, name, none⟩

/-- What is recorded of calls that are made one after another. -/
def courseEvents (request : Request) (source : String) (arrangement : Arrangement) :
    Instant → List Exchange → List ParameterEvent
  | _, [] => []
  | start, exchange :: rest =>
    request.callEvents source arrangement start exchange ++
      request.courseEvents source arrangement exchange.time rest

end Request

namespace Provider

variable {σ : Type} (p : Provider σ)

/-- Whether the cache serves what a request looks up under a name or path. -/
def serves (request : Request) (name : String) (s : State σ) : Bool :=
  match request with
  | .get _ options => (p.cachedValue? name options s).isSome
  | .getMultiple _ options => (p.cachedValues? name options s).isSome
  | .getByName parameters options =>
    (p.cachedValue? name (options.forName (overridesOf parameters name)) s).isSome
  | .clear => false

/-- What a request records before it makes a call: how the cache was asked for every name or path
that is looked up. -/
def lookUpEvents (request : Request) (s : State σ) : List ParameterEvent :=
  request.lookedUp.map fun name =>
    ⟨p.source.name, request.operation,
      consulted request.forceFetch (p.serves request name s), name, none⟩

theorem lookUpEvents_get (name : String) (options : GetOptions) (s : State σ) :
    p.lookUpEvents (.get name options) s =
      [⟨p.source.name, .get,
        consulted options.forceFetch (p.cachedValue? name options s).isSome, name, none⟩] := rfl

theorem lookUpEvents_getMultiple (path : String) (options : GetOptions) (s : State σ) :
    p.lookUpEvents (.getMultiple path options) s =
      [⟨p.source.name, .getMultiple,
        consulted options.forceFetch (p.cachedValues? path options s).isSome, path, none⟩] := rfl

/-- **What a request records.** The entries of a listing are decoded in some order. -/
def events (arrangement : Arrangement) (request : Request) (s : State σ) : List ParameterEvent :=
  match request with
  | .clear => [⟨p.source.name, .clear, .cleared, "*", none⟩]
  | .get .. | .getMultiple .. | .getByName .. =>
    p.lookUpEvents request s ++
      request.courseEvents p.source.name arrangement s.world.now (p.exchanges request s)

/-! ### Steps -/

theorem record_recorded (operation : Operation) (activity : Activity) (parameter : String)
    (s : State σ) :
    recorded (p.record operation activity parameter s).log =
      recorded s.log ++ [⟨p.source.name, operation, activity, parameter, none⟩] :=
  recorded_append ..

/-- **A fetch records one event**: how it went and how long it took. -/
theorem fetch_recorded {α : Type} (operation : Operation) (parameter : String) (fetch : Fetch σ α)
    (s : State σ) :
    recorded (p.fetch operation parameter fetch s).2.log =
      recorded s.log ++
        [⟨p.source.name, operation, fetchActivity (fetch.quiet s.world).1, parameter,
          some ((fetch.quiet s.world).2.now.since s.world.now)⟩] := by
  rcases hfetch : fetch { s.world with notes := [] } with ⟨outcome, world⟩
  have hnotes : recorded (s.log ++ world.notes.map .note) = recorded s.log := by
    rw [recorded_append, recorded_notes, List.append_nil]
  simp only [Provider.fetch, State.perform, Fetch.quiet, hfetch]
  cases outcome with
  | ok fetched =>
      dsimp only [recordCall, State.tell]
      rw [recorded_append, hnotes]
      rfl
  | error e =>
      dsimp only [recordCall, State.tell]
      rw [recorded_append, recorded_append, hnotes, List.append_assoc]
      rfl

/-- Recording what cannot be decoded records an event for each of it. -/
theorem recordUndecoded_recorded (operation : Operation) (names : List String) (s : State σ) :
    recorded (p.recordUndecoded operation names s).log =
      recorded s.log ++ names.map
        fun name => ⟨p.source.name, operation, .transformFailed, name, none⟩ := by
  induction names generalizing s with
  | nil => exact (List.append_nil _).symm
  | cons name rest ih =>
      refine (ih _).trans ?_
      rw [record_recorded, List.append_assoc]
      rfl

/-! ### Look-ups -/

/-- What an inquiry records: how the cache was asked, and if that does not serve, how the call went,
and then the values that cannot be decoded. -/
def inquiryEvents {ρ α : Type} (q : Inquiry ρ α) (s : State σ) : List ParameterEvent :=
  ⟨p.source.name, q.operation, consulted q.options.forceFetch (p.known? q s).isSome, q.subject,
      none⟩ ::
    match p.known? q s with
    | some _ => []
    | none =>
      let (outcome, after) := (q.call p.source).quiet s.world
      ⟨p.source.name, q.operation, fetchActivity outcome, q.subject,
          some (after.now.since s.world.now)⟩ ::
        match outcome with
        | .error _ => []
        | .ok raw => (q.undecoded raw).map
            fun name => ⟨p.source.name, q.operation, .transformFailed, name, none⟩

/-- **What an inquiry records.** If the cache serves it, only that is recorded; otherwise a miss or
a bypass, then the call, and then what could not be decoded. -/
theorem inquire_recorded {ρ α : Type} (q : Inquiry ρ α) (s : State σ) :
    recorded (p.inquire q s).2.log = recorded s.log ++ p.inquiryEvents q s := by
  cases h : p.known? q s with
  | some found =>
      rw [inquire_of_known h, record_recorded, inquiryEvents, h]
      rfl
  | none =>
      obtain ⟨after, hfetch, -⟩ := p.fetch_eq q.operation q.subject (q.call p.source)
        (p.record q.operation (consulted q.options.forceFetch false) q.subject s)
      have hrecorded := p.fetch_recorded q.operation q.subject (q.call p.source)
        (p.record q.operation (consulted q.options.forceFetch false) q.subject s)
      rw [hfetch, record_recorded, record_world, List.append_assoc] at hrecorded
      rw [inquiryEvents, h]
      rw [known?] at h
      simp only [inquire, consult_eq, h, Option.isSome_none, hfetch, record_world]
      cases houtcome : ((q.call p.source).quiet s.world).1 with
      | error e =>
          rw [houtcome] at hrecorded
          exact hrecorded
      | ok raw =>
          rw [houtcome] at hrecorded
          have hundecoded := p.recordUndecoded_recorded q.operation (q.undecoded raw) after
          rw [hrecorded, List.append_assoc] at hundecoded
          dsimp only
          cases q.decode raw <;> exact hundecoded

/-- What a look-up of a name records is what its inquiry does. -/
theorem events_get (arrangement : Arrangement) (name : String) (options : GetOptions)
    (s : State σ) :
    p.events arrangement (.get name options) s = p.inquiryEvents (.ofName name options) s := by
  rw [events, lookUpEvents_get, exchanges_get, calls, inquiryEvents]
  refine congrArg (List.cons _) ?_
  cases p.known? (.ofName name options) s with
  | some value => rfl
  | none =>
      rcases ((Inquiry.ofName name options).call p.source).quiet s.world with ⟨outcome, after⟩
      refine (List.append_nil _).trans ?_
      cases outcome <;> rfl

/-- So is what a look-up of a path records, its entries decoded in some order. -/
theorem events_getMultiple (arrangement : Arrangement) (path : String) (options : GetOptions)
    (s : State σ) :
    p.events arrangement (.getMultiple path options) s =
      p.inquiryEvents (.ofPath arrangement path options) s := by
  rw [events, lookUpEvents_getMultiple, p.exchanges_getMultiple arrangement, calls, inquiryEvents]
  refine congrArg (List.cons _) ?_
  cases p.known? (.ofPath arrangement path options) s with
  | some values => rfl
  | none =>
      rcases ((Inquiry.ofPath arrangement path options).call p.source).quiet s.world with
        ⟨outcome, after⟩
      refine (List.append_nil _).trans ?_
      cases outcome <;> rfl

end Provider

end CachedParameters
