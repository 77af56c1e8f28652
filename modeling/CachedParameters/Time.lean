/-!
# Instants and durations

Time is counted in nanoseconds. A clock may be set back, so an instant is any whole number, while a
duration is never negative: nothing has elapsed since an instant that lies ahead. So an entry of a
cache is fresh (`is_fresh`) after the clock was set back, if any age is allowed at all.
-/

namespace CachedParameters

/-- A length of time, in nanoseconds. -/
structure Duration where
  nanoseconds : Nat
  deriving DecidableEq, Repr, Inhabited

namespace Duration

def perSecond : Nat := 1000000000

/-- So many whole seconds. -/
def ofSeconds (seconds : Nat) : Duration := ⟨seconds * perSecond⟩

def ofParts (seconds nanoseconds : Nat) : Duration := ⟨seconds * perSecond + nanoseconds⟩

def seconds (d : Duration) : Nat := d.nanoseconds / perSecond

def subsecond (d : Duration) : Nat := d.nanoseconds % perSecond

/-- Milliseconds in binary64 arithmetic, by way of seconds. -/
def toMilliseconds (d : Duration) : Float :=
  (Float.ofNat d.seconds + Float.ofNat d.subsecond / 1000000000.0) * 1000.0

instance : LT Duration := ⟨fun a b => a.nanoseconds < b.nanoseconds⟩

instance (a b : Duration) : Decidable (a < b) :=
  inferInstanceAs (Decidable (a.nanoseconds < b.nanoseconds))

end Duration

/-- A point in time, in nanoseconds since the clock was started. -/
structure Instant where
  nanoseconds : Int
  deriving DecidableEq, Repr, Inhabited

namespace Instant

def zero : Instant := ⟨0⟩

def advance (t : Instant) (d : Duration) : Instant := ⟨t.nanoseconds + d.nanoseconds⟩

/-- The instant that lies `d` earlier, for a clock that is set back. -/
def rewind (t : Instant) (d : Duration) : Instant := ⟨t.nanoseconds - d.nanoseconds⟩

/-- The time from `earlier` to `t`, zero if `earlier` lies ahead. So what was stored before a clock
was set back is taken for new. -/
def since (t earlier : Instant) : Duration := ⟨(t.nanoseconds - earlier.nanoseconds).toNat⟩

end Instant

end CachedParameters
