import CachedParameters.Request
import CachedParameters.Value
import CachedParameters.Assoc
import CachedParameters.Time

/-!
# The cache of a provider

A `CacheKey` holds everything that tells a request apart from others: the source, what is looked up,
the name or path, how values are decoded, and the fingerprint of the backend options. The strictness
of a listing belongs to its key, as a tolerant listing may hold marks that a strict one must not
deliver.

A `Cache` (`ParameterCache`) keeps one entry for each key. Freshness is decided when an entry is
read: an entry younger than the age allowed is fresh, and stale entries stay until they are replaced
or the cache is emptied. So one entry can be fresh for one request and stale for another.
-/

namespace CachedParameters

/-- What a request looks up: one name, or a path, strictly or not. -/
inductive Lookup where
  | single
  | multiple (strict : Bool)
  deriving DecidableEq, Repr

/-- The identity of a request. The backend options stand in it as their fingerprint, and of the
transform what it was resolved to, so requests that are answered alike have the same key. -/
structure CacheKey where
  provider : String
  lookup : Lookup
  name : String
  transform : Transform
  options : String
  deriving DecidableEq, Repr

namespace CacheKey

/-- The key of a look-up of one name. -/
def single (provider name : String) (transform : Transform) (options : BackendOptions) :
    CacheKey :=
  ⟨provider, .single, name, transform, options.fingerprint⟩

/-- The key of a listing. It holds the mode as well, since a tolerant listing may have marks where
a strict one fails, and the transform as it was named, since the automatic one goes by the
sub-keys. -/
def multiple (provider path : String) (transform : Transform) (strict : Bool)
    (options : BackendOptions) : CacheKey :=
  ⟨provider, .multiple strict, path, transform, options.fingerprint⟩

end CacheKey

/-! ### What is kept -/

/-- The values of a path by sub-key; a value that could not be decoded is `none`. -/
abbrev PathValues := Dict (Option ParameterValue)

/-- What is kept for a request: the value of a name, or the values of a path. -/
inductive Cached where
  | value (value : ParameterValue)
  | values (values : PathValues)

namespace Cached

/-- The value of a name, if that is what is kept. -/
def value? : Cached → Option ParameterValue
  | .value content => some content
  | .values _ => none

/-- The values of a path, if that is what is kept. -/
def values? : Cached → Option PathValues
  | .values content => some content
  | .value _ => none

end Cached

/-- Something kept, and when it was stored. How long it may be served is not part of it, as every
request decides that for itself. -/
structure CacheEntry where
  content : Cached
  storedAt : Instant

/-- Whether an entry is younger than the age allowed. An entry that is just as old is not, so with
an age of zero nothing is served. -/
def CacheEntry.isFresh (entry : CacheEntry) (now : Instant) (maxAge : Duration) : Bool :=
  now.since entry.storedAt < maxAge

/-- What a provider keeps, by request. Nothing is ever dropped for its age: an entry that is too old
is passed over and replaced by the next retrieval. -/
abbrev Cache := Assoc CacheKey CacheEntry

namespace Cache

/-- The entry of a key, if it is younger than the age allowed. -/
def fresh? (cache : Cache) (key : CacheKey) (now : Instant) (maxAge : Duration) :
    Option CacheEntry :=
  (cache.find? key).filter fun entry => entry.isFresh now maxAge

end Cache

end CachedParameters
