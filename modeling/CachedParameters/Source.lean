import CachedParameters.Event
import CachedParameters.Request
import CachedParameters.Value

/-!
# Sources

A `Source` (`ParameterSource`) fetches raw values from one backend and nothing more; caching and
decoding are the business of the provider that wraps it. A fetch may change the backend, take time
and leave notes, so it is a function on the `World` that the backend lives in. A `Call` does none of
this but change the backend. Sources and the clients behind them are records of such functions, so
that a statement can range over all of them.

`Source.fetchEach` looks up the names of a bulk one by one, which is what `fetch_bulk` does for
backends that cannot do better. A `BulkFetch` lists what was found beside what was not.
-/

namespace CachedParameters

/-- The backend of a source, the time, and the notes left so far, the oldest first. A fetch may
change all three. -/
structure World (σ : Type) where
  backend : σ
  now : Instant
  notes : List Note := []

/-- A computation in the world of a source that fails or yields a value. -/
abbrev Fetch (σ α : Type) := World σ → Except Error α × World σ

/-- A call to a backend that takes no time and leaves no notes. -/
abbrev Call (σ α : Type) := σ → Except Error α × σ

namespace Fetch

variable {σ α : Type}

/-- A fetch that makes one backend call. Only the backend changes by it, so clients need to know of
neither time nor notes. -/
def ofCall (call : Call σ α) : Fetch σ α := fun world =>
  let (outcome, backend) := call world.backend
  (outcome, { world with backend })

def fail (e : Error) : Fetch σ α := fun world => (.error e, world)

end Fetch

/-! ### What a source gives -/

/-- Raw values by name, in the order of the names. What a source lists under a path has the sub-keys
for names. -/
abbrev Listing := Dict RawValue

/-- What a bulk look-up yields: the values that were found, and the names that were not. Every name
that was asked for should be on one side only, but nothing here enforces that. -/
structure BulkFetch where
  values : Listing := .empty
  failed : List String := []

/-- The raw values of one backend. A listing gives its values by sub-key, and one bulk look-up asks
for no more names than the limit, if there is one. -/
structure Source (σ : Type) where
  name : String
  fetchOne : String → BackendOptions → Fetch σ RawValue
  fetchMany : String → BackendOptions → Fetch σ Listing
  bulkLimit : Option Nat
  fetchBulk : List String → BackendOptions → Fetch σ BulkFetch

namespace Source

variable {σ : Type}

/-- Looks up the names of a bulk one by one. A name whose look-up fails is listed as failed and
noted, and the others go on. The failure itself does not reach the caller. -/
def fetchEach (source : String) (fetchOne : String → BackendOptions → Fetch σ RawValue)
    (options : BackendOptions) (bulk : BulkFetch) : List String → World σ → BulkFetch × World σ
  | [], world => (bulk, world)
  | name :: rest, world =>
    match fetchOne name options world with
    | (.ok value, world) =>
      fetchEach source fetchOne options { bulk with values := bulk.values.insert name value }
        rest world
    | (.error e, world) =>
      fetchEach source fetchOne options { bulk with failed := bulk.failed ++ [name] } rest
        { world with notes := world.notes ++ [.memberFailed source name e] }

/-- A source whose backend has no bulk look-up of its own. Names can be looked up one by one without
a limit. -/
def ofSingles (name : String) (fetchOne : String → BackendOptions → Fetch σ RawValue)
    (fetchMany : String → BackendOptions → Fetch σ Listing) : Source σ where
  name := name
  fetchOne := fetchOne
  fetchMany := fetchMany
  bulkLimit := none
  fetchBulk names options world :=
    let (bulk, world) := fetchEach name fetchOne options {} names world
    (.ok bulk, world)

end Source

end CachedParameters
