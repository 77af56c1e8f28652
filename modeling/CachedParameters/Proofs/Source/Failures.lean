import CachedParameters.Error
import CachedParameters.Source
import CachedParameters.Value

/-!
# Failures to fetch and failures to decode

Sources fetch and transforms decode, and their failures are of different kinds: whatever a transform
refuses is a failure to decode, and a source that minds its business fails only because a backend
did or because it was set up wrongly.

## Main results

- `Transform.kind_of_apply`: a value that cannot be decoded is a failure to decode.
- `Source.FailsToFetch.ofSingles`: a source without a bulk look-up fails to fetch if its other calls
  do.
-/

namespace CachedParameters

/-- A failure to fetch: a backend failed, or the library was set up wrongly. -/
def Error.OfFetch (e : Error) : Prop := e.kind = .retrieval ∨ e.kind = .configuration

theorem Error.OfFetch.kind_ne {e : Error} (h : e.OfFetch) : e.kind ≠ .transform := by
  rcases h with h | h <;> rw [h] <;> decide

/-- A value that cannot be decoded is a failure to decode. -/
theorem Transform.kind_of_apply {transform : Transform} {name : String} {raw : RawValue} {e : Error}
    (h : transform.apply name raw = .error e) : e.kind = .transform := by
  rw [apply.eq_def] at h
  split at h
  · split at h
    · cases h
    · obtain rfl := Except.error.inj h
      rfl
  · split at h
    · cases h
    · obtain rfl := Except.error.inj h
      rfl
  all_goals
    split at h <;> cases h

variable {κ α : Type}

/-- Whoever is asked fails to fetch, if at all. -/
def FailsToFetch (ask : κ → Except Error α × κ) : Prop :=
  ∀ s e, (ask s).1 = .error e → e.OfFetch

/-- A fetch that makes a call fails as the call does. -/
theorem FailsToFetch.ofCall {call : Call κ α} (h : FailsToFetch call) :
    FailsToFetch (Fetch.ofCall call) := fun world => h world.backend

/-- A fetch that always fails does so with its failure. -/
theorem FailsToFetch.fail {e : Error} (h : e.OfFetch) :
    FailsToFetch (Fetch.fail e : Fetch κ α) := by
  rintro world other hother
  obtain rfl := Except.error.inj hother
  exact h

/-- A source that fails to fetch, if at all, whether it is asked for a name, a path or several
names. -/
structure Source.FailsToFetch (source : Source κ) : Prop where
  one (name : String) (options : BackendOptions) :
    CachedParameters.FailsToFetch (source.fetchOne name options)
  many (path : String) (options : BackendOptions) :
    CachedParameters.FailsToFetch (source.fetchMany path options)
  bulk (names : List String) (options : BackendOptions) :
    CachedParameters.FailsToFetch (source.fetchBulk names options)

/-- A source without a bulk look-up of its own fails to fetch if its other calls do. -/
theorem Source.FailsToFetch.ofSingles (name : String)
    {fetchOne : String → BackendOptions → Fetch κ RawValue}
    {fetchMany : String → BackendOptions → Fetch κ Listing}
    (hone : ∀ name options, CachedParameters.FailsToFetch (fetchOne name options))
    (hmany : ∀ path options, CachedParameters.FailsToFetch (fetchMany path options)) :
    (Source.ofSingles name fetchOne fetchMany).FailsToFetch where
  one := hone
  many := hmany
  bulk names options world e he := by cases he

end CachedParameters
