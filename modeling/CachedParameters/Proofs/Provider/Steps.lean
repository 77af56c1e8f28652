import CachedParameters.Provider

/-!
# What the steps of a provider do

Every operation asks the cache, lets the source fetch and stores what it decoded. Apart from the
log, asking changes nothing, a fetch changes only the world, and storing changes only the cache.
The lemmas here say so once, and no later proof opens these steps again.

To say which calls an operation makes, its source is watched. `Source.watched` answers exactly as
the source does and writes down every call with its answer, in a backend that holds the original one
beside the calls seen so far. A provider over a watched source runs the same operations, so what was
seen during one of them are the calls that it makes.

## Main results

- `Provider.consult_eq`: what asking the cache yields and records.
- `Provider.fetch_eq`: what a fetch yields and leaves behind.
- `Provider.cached?_watch`, `Provider.fetch_watch`: being watched changes no step, and only a fetch
  is seen.
-/

namespace CachedParameters

variable {σ α : Type}

/-! ### Fetches -/

/-- A fetch whose notes are taken off. -/
def Fetch.quiet (fetch : Fetch σ α) : Fetch σ α := fun world =>
  let (outcome, after) := fetch { world with notes := [] }
  (outcome, { after with notes := [] })

namespace Provider

/-! ### The cache -/

/-- What the cache serves for a key: nothing if it is passed over, and else what it keeps, if that
is younger than the age allowed. -/
def cached? (p : Provider σ) (key : CacheKey) (forceFetch : Bool) (maxAge : Option Duration)
    (pick : Cached → Option α) (s : State σ) : Option α :=
  if forceFetch then none
  else (s.cache.fresh? key s.world.now (p.ageLimit maxAge)).bind (pick ·.content)

/-- What is recorded when the cache was asked. -/
def consulted (forceFetch served : Bool) : Activity :=
  if forceFetch then .bypass else if served then .hit else .miss

/-- Asking the cache yields what it serves and is recorded. Nothing but the log changes, even if
there is an entry that is too old. -/
theorem consult_eq (p : Provider σ) (operation : Operation) (key : CacheKey) (parameter : String)
    (forceFetch : Bool) (maxAge : Option Duration) (pick : Cached → Option α) (s : State σ) :
    p.consult operation key parameter forceFetch maxAge pick s =
      (p.cached? key forceFetch maxAge pick s,
        p.record operation
          (consulted forceFetch (p.cached? key forceFetch maxAge pick s).isSome) parameter s) := by
  rw [consult, cached?]
  cases forceFetch with
  | true => rfl
  | false =>
      simp only [Bool.false_eq_true, if_false]
      split <;> rename_i h <;> rw [h] <;> rfl

/-- What the cache serves for a key depends on what it keeps for the key and on the time only. -/
theorem cached?_congr (p : Provider σ) {key : CacheKey} {forceFetch : Bool}
    {maxAge : Option Duration} {pick : Cached → Option α} {s t : State σ}
    (hkey : s.cache.find? key = t.cache.find? key) (hnow : s.world.now = t.world.now) :
    p.cached? key forceFetch maxAge pick s = p.cached? key forceFetch maxAge pick t := by
  simp only [cached?, Cache.fresh?, hkey, hnow]

@[simp] theorem record_world (p : Provider σ) (operation : Operation) (activity : Activity)
    (parameter : String) (s : State σ) :
    (p.record operation activity parameter s).world = s.world :=
  rfl

@[simp] theorem record_cache (p : Provider σ) (operation : Operation) (activity : Activity)
    (parameter : String) (s : State σ) :
    (p.record operation activity parameter s).cache = s.cache :=
  rfl

@[simp] theorem State.store_cache (s : State σ) (key : CacheKey) (content : Cached) :
    (s.store key content).cache = s.cache.insert key ⟨content, s.world.now⟩ := rfl

/-! ### The source -/

/-- A fetch yields what the source yields and leaves the world as the source leaves it, without its
notes. It does not touch the cache. -/
theorem fetch_eq (p : Provider σ) (operation : Operation) (parameter : String)
    (fetch : Fetch σ α) (s : State σ) :
    ∃ after, p.fetch operation parameter fetch s = ((fetch.quiet s.world).1, after) ∧
      after.world = (fetch.quiet s.world).2 ∧ after.cache = s.cache := by
  rcases hfetch : fetch { s.world with notes := [] } with ⟨outcome, world⟩
  simp only [Provider.fetch, State.perform, Fetch.quiet, hfetch]
  cases outcome with
  | ok fetched => exact ⟨_, rfl, rfl, rfl⟩
  | error e => exact ⟨_, rfl, rfl, rfl⟩

end Provider

/-! ### Watched sources -/

/-- A call to a source, with its answer. The value of one name, the values under a path, or the
values of several names were asked for. -/
inductive Answer where
  | one (name : String) (options : BackendOptions) (outcome : Except Error RawValue)
  | many (path : String) (options : BackendOptions) (outcome : Except Error Listing)
  | bulk (names : List String) (options : BackendOptions) (outcome : Except Error BulkFetch)

/-- A call to a source, and the time when it was answered. -/
structure Exchange where
  answer : Answer
  time : Instant

/-- A backend, and the calls that its source has seen so far, the oldest first. -/
structure Watched (σ : Type) where
  backend : σ
  seen : List Exchange

/-- The world with the calls seen so far. -/
def World.watch (seen : List Exchange) (world : World σ) : World (Watched σ) where
  backend := ⟨world.backend, seen⟩
  now := world.now
  notes := world.notes

/-- The world without what has been seen of it. -/
def World.unwatch (world : World (Watched σ)) : World σ where
  backend := world.backend.backend
  now := world.now
  notes := world.notes

/-- Makes a fetch and writes its answer down. -/
def Fetch.watched (answer : Except Error α → Answer) (fetch : Fetch σ α) :
    Fetch (Watched σ) α := fun world =>
  let (outcome, after) := fetch world.unwatch
  (outcome, after.watch (world.backend.seen ++ [⟨answer outcome, after.now⟩]))

/-- A source that writes down the calls made to it. -/
def Source.watched (source : Source σ) : Source (Watched σ) where
  name := source.name
  fetchOne name options := (source.fetchOne name options).watched (.one name options)
  fetchMany path options := (source.fetchMany path options).watched (.many path options)
  bulkLimit := source.bulkLimit
  fetchBulk names options := (source.fetchBulk names options).watched (.bulk names options)

namespace Provider

def watched (p : Provider σ) : Provider (Watched σ) := { p with source := p.source.watched }

/-- The state of a provider, with the calls its source has seen so far. -/
def State.watch (seen : List Exchange) (s : State σ) : State (Watched σ) where
  world := s.world.watch seen
  cache := s.cache
  log := s.log

/-! ### Being watched changes no step -/

@[simp] theorem record_watch (p : Provider σ) (operation : Operation) (activity : Activity)
    (parameter : String) (seen : List Exchange) (s : State σ) :
    p.watched.record operation activity parameter (s.watch seen) =
      (p.record operation activity parameter s).watch seen := rfl

@[simp] theorem cached?_watch (p : Provider σ) (key : CacheKey) (forceFetch : Bool)
    (maxAge : Option Duration) (pick : Cached → Option α) (seen : List Exchange) (s : State σ) :
    p.watched.cached? key forceFetch maxAge pick (s.watch seen) =
      p.cached? key forceFetch maxAge pick s := rfl

/-- A fetch is seen with its answer, and goes on as if it was not. -/
theorem fetch_watch (p : Provider σ) (operation : Operation) (parameter : String)
    (answer : Except Error α → Answer) (fetch : Fetch σ α) (seen : List Exchange) (s : State σ) :
    p.watched.fetch operation parameter (fetch.watched answer) (s.watch seen) =
      ((p.fetch operation parameter fetch s).1,
        (p.fetch operation parameter fetch s).2.watch
          (seen ++ [⟨answer (fetch.quiet s.world).1, (fetch.quiet s.world).2.now⟩])) := by
  have hperform : (s.watch seen).perform (fetch.watched answer) =
      ((s.perform fetch).1, (s.perform fetch).2.watch
        (seen ++ [⟨answer (fetch.quiet s.world).1, (fetch.quiet s.world).2.now⟩])) := rfl
  simp only [Provider.fetch, hperform]
  split <;> rfl

end Provider

end CachedParameters
