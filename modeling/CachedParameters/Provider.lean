import CachedParameters.Cache
import CachedParameters.Settings
import CachedParameters.Source
import CachedParameters.Request

/-!
# Providers

A `Provider` puts a cache in front of a source. Its operations work on a `Provider.State`: the world
of the source, the cache, and the events told so far. The steps they are made of are to ask the
cache and to let the source fetch, and both are recorded.

`Provider.get` and `Provider.getMultiple` ask the cache first, unless they are told not to. What
they fetch and decode is stored under its key with the time of storing; a failure to fetch or to
decode leaves the cache as it was. The third operation, `get_parameters_by_name`, is the subject of
the next module, and `Provider.clear` is `clear_cache`.
-/

namespace CachedParameters

/-- A source and the age up to which its values are served from the cache, unless a call says
otherwise. -/
structure Provider (σ : Type) where
  source : Source σ
  maxAge : Duration := defaultMaxAge

namespace Provider

/-- Everything that the operations of a provider change: the world of the source, the cache, and the
events told so far, the oldest first. -/
structure State (σ : Type) where
  world : World σ
  cache : Cache := .empty
  log : List Event := []

namespace State

variable {σ : Type}

def tell (s : State σ) (event : Event) : State σ := { s with log := s.log ++ [event] }

/-- Stores something under a key, stamped with the time. -/
def store (s : State σ) (key : CacheKey) (content : Cached) : State σ :=
  { s with cache := s.cache.insert key ⟨content, s.world.now⟩ }

/-- Lets a source fetch, and tells the notes that it leaves. It starts without notes and ends
without, so the notes of one fetch are never told with those of another. -/
def perform {α : Type} (fetch : Fetch σ α) (s : State σ) : Except Error α × State σ :=
  let (outcome, world) := fetch { s.world with notes := [] }
  (outcome, { s with world := { world with notes := [] }, log := s.log ++ world.notes.map .note })

end State

variable {σ α : Type}

/-- The age allowed for a call: what it says, or else the default. -/
def ageLimit (p : Provider σ) (requested : Option Duration) : Duration :=
  requested.getD p.maxAge

/-- Records an event of this provider under the name of its source. It does not say how long
anything took. -/
def record (p : Provider σ) (operation : Operation) (activity : Activity) (parameter : String)
    (s : State σ) : State σ :=
  s.tell (.parameter ⟨p.source.name, operation, activity, parameter, none⟩)

/-- Records a backend call of this provider and how long it took. -/
def recordCall (p : Provider σ) (operation : Operation) (activity : Activity)
    (parameter : String) (took : Duration) (s : State σ) : State σ :=
  s.tell (.parameter ⟨p.source.name, operation, activity, parameter, some took⟩)

/-- Asks the cache, and records how that went. A value of the wrong kind, which no run puts under a
key, counts as a miss. -/
def consult (p : Provider σ) (operation : Operation) (key : CacheKey) (parameter : String)
    (forceFetch : Bool) (maxAge : Option Duration) (pick : Cached → Option α) (s : State σ) :
    Option α × State σ :=
  if forceFetch then (none, p.record operation .bypass parameter s)
  else
    match (s.cache.fresh? key s.world.now (p.ageLimit maxAge)).bind (pick ·.content) with
    | some found => (some found, p.record operation .hit parameter s)
    | none => (none, p.record operation .miss parameter s)

/-- Lets the source fetch, and records how that went and how long it took. The notes of the
source come first. -/
def fetch (p : Provider σ) (operation : Operation) (parameter : String) (fetch : Fetch σ α)
    (s : State σ) : Except Error α × State σ :=
  let start := s.world.now
  let (outcome, s) := s.perform fetch
  let took := s.world.now.since start
  match outcome with
  | .ok fetched => (.ok fetched, p.recordCall operation .fetched parameter took s)
  | .error e =>
    (.error e, (p.recordCall operation .fetchFailed parameter took s).tell
      (.callFailed p.source.name parameter e))

/-! ### One name -/

/-- Retrieves the value of a name. The transform is resolved first, so the key is that of the
transform that decodes the value. -/
def get (p : Provider σ) (name : String) (options : GetOptions) (s : State σ) :
    Except Error ParameterValue × State σ :=
  let transform := options.transform.resolve name
  let key := CacheKey.single p.source.name name transform options.backend
  match p.consult .get key name options.forceFetch options.maxAge Cached.value? s with
  | (some value, s) => (.ok value, s)
  | (none, s) =>
    match p.fetch .get name (p.source.fetchOne name options.backend) s with
    | (.error e, s) => (.error e, s)
    | (.ok raw, s) =>
      match transform.apply name raw with
      | .error e => (.error e, p.record .get .transformFailed name s)
      | .ok value => (.ok value, s.store key (.value value))

/-! ### A path -/

/-- Decodes entries one after another into `values`. An entry that cannot be decoded is recorded;
it ends the work if `strict`, and else becomes `none`. -/
def decodeEntries (p : Provider σ) (transform : Transform) (strict : Bool) (values : PathValues) :
    List (String × RawValue) → State σ → Except Error PathValues × State σ
  | [], s => (.ok values, s)
  | (subKey, raw) :: rest, s =>
    match transform.apply subKey raw with
    | .ok value => p.decodeEntries transform strict (values.insert subKey (some value)) rest s
    | .error e =>
      let s := p.record .getMultiple .transformFailed subKey s
      if strict then (.error e, s)
      else p.decodeEntries transform strict (values.insert subKey none) rest s

/-- Retrieves the values under a path (`get_multiple`). The automatic transform goes by the
sub-keys, so the key holds it as it was named. -/
def getMultiple (p : Provider σ) (path : String) (options : GetOptions) (s : State σ) :
    Except Error PathValues × State σ :=
  let key :=
    CacheKey.multiple p.source.name path options.transform options.strict options.backend
  match p.consult .getMultiple key path options.forceFetch options.maxAge Cached.values? s with
  | (some values, s) => (.ok values, s)
  | (none, s) =>
    match p.fetch .getMultiple path (p.source.fetchMany path options.backend) s with
    | (.error e, s) => (.error e, s)
    | (.ok listing, s) =>
      match p.decodeEntries options.transform options.strict .empty listing.entries s with
      | (.error e, s) => (.error e, s)
      | (.ok values, s) => (.ok values, s.store key (.values values))

/-! ### The cache -/

/-- Empties the cache. What the source has open, such as the sessions of a configuration store,
stays as it is. -/
def clear (p : Provider σ) (s : State σ) : State σ :=
  p.record .clear .cleared "*" { s with cache := .empty }

end Provider

end CachedParameters
