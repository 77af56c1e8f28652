import CachedParameters.Error
import CachedParameters.Time

/-!
# Events

What providers and sources tell about their work. A provider records an event for every look-up,
every backend call and every value it cannot decode, each under the name of a `ProviderOperation`
and a `ProviderActivity`; a source leaves notes about failures that do not reach the caller. Events
are kept as data here, and how a log words them is told by their names, levels and messages.
-/

namespace CachedParameters

/-- What a provider was asked to do: to look up one name, to list a path, to look up a batch of
names, or to empty the cache. -/
inductive Operation where
  | get | getMultiple | getByName | clear
  deriving DecidableEq, Repr

def Operation.name : Operation → String
  | .get => "provider.get"
  | .getMultiple => "provider.get_multiple"
  | .getByName => "provider.get_by_name"
  | .clear => "provider.clear"

/-- How important an event is: of interest when looking for a fault, of general interest, or a sign
of trouble. -/
inductive Level where
  | debug | info | warn
  deriving DecidableEq, Repr

def Level.name : Level → String
  | .debug => "DEBUG"
  | .info => "INFO"
  | .warn => "WARN"

/-- What happened in the course of an operation (`ProviderActivity`). The cache served a value, had
none that was fresh enough, or was passed over; a backend call succeeded or failed; a value could
not be decoded; the cache was emptied. -/
inductive Activity where
  | hit | miss | bypass | fetched | fetchFailed | transformFailed | cleared
  deriving DecidableEq, Repr

def Activity.name : Activity → String
  | .hit => "cache.hit"
  | .miss => "cache.miss"
  | .bypass => "cache.bypass"
  | .fetched => "backend.fetched"
  | .fetchFailed => "backend.failed"
  | .transformFailed => "transform.failed"
  | .cleared => "cache.cleared"

/-- How important an activity is. Everyday look-ups are only of interest when looking for a fault,
while failures are signs of trouble even if a graceful batch goes on. -/
def Activity.level : Activity → Level
  | .hit | .miss | .bypass => .debug
  | .fetched | .cleared => .info
  | .fetchFailed | .transformFailed => .warn

/-- An event of a provider: the name of its source, what it was asked to do, what happened, and the
name, path or names concerned. If there was a backend call, it says how long that took. -/
structure ParameterEvent where
  provider : String
  operation : Operation
  activity : Activity
  parameter : String
  duration : Option Duration := none
  deriving DecidableEq, Repr

/-- A note of a source about its own work: one of the names of a bulk look-up failed, or the
parameter store does not know some names. -/
inductive Note where
  | memberFailed (source parameter : String) (error : Error)
  | invalidNames (names : List String)
  deriving DecidableEq

/-- Something that was told: an event of a provider, why a backend call failed, or a note of a
source. -/
inductive Event where
  | parameter (event : ParameterEvent)
  | callFailed (provider parameter : String) (error : Error)
  | note (note : Note)
  deriving DecidableEq

/-- How important an event is. What sources note is a matter of detail, since the provider records
the outcome of the call as well. -/
def Event.level : Event → Level
  | .parameter event => event.activity.level
  | .callFailed .. | .note _ => .debug

def Event.message : Event → String
  | .parameter _ => "parameter event"
  | .callFailed .. => "backend call failed"
  | .note (.memberFailed ..) => "bulk member lookup failed"
  | .note (.invalidNames _) => "parameter store reported invalid names"

end CachedParameters
