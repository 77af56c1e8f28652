import CachedParameters.Proofs.Source.Truthful
import CachedParameters.Store.Configurations
import CachedParameters.Store.Parameters

/-!
# Stores take no time

The clients of a store answer at once, so a request to a provider in front of one leaves the clock
as it is. Providers that share a clock do not disturb each other by it.

## Main results

- `Source.Timeless.serve`: a request to a source that takes no time leaves the clock as it is.
- `ParameterStore.timeless`, `SecretStore.timeless`, `ConfigurationStore.timeless`: these stores
  take no time.
-/

namespace CachedParameters

variable {σ κ α : Type}

/-- A fetch leaves the clock as it is. -/
def Fetch.Timeless (fetch : Fetch σ α) : Prop := ∀ world, (fetch world).2.now = world.now

theorem Fetch.timeless_ofCall (call : Call σ α) : (Fetch.ofCall call).Timeless := fun _ => rfl

theorem Fetch.timeless_fail (e : Error) : (Fetch.fail e : Fetch σ α).Timeless := fun _ => rfl

/-- A source takes no time to answer, whatever it is asked for. -/
structure Source.Timeless (source : Source σ) : Prop where
  one (name : String) (options : BackendOptions) : (source.fetchOne name options).Timeless
  many (path : String) (options : BackendOptions) : (source.fetchMany path options).Timeless
  bulk (names : List String) (options : BackendOptions) : (source.fetchBulk names options).Timeless

/-- A source that takes no time is truthful about nothing at all. -/
theorem Source.Timeless.truthful {source : Source σ} (h : source.Timeless) :
    source.Truthful (fun _ => ()) (fun _ _ _ _ => True) (fun _ _ _ _ => True) where
  one name options world := ⟨rfl, h.one name options world, fun _ _ => trivial⟩
  many path options world := ⟨rfl, h.many path options world, fun _ _ => trivial⟩
  bulk names options world := ⟨rfl, h.bulk names options world, fun _ _ _ _ _ => trivial⟩

/-- **A request leaves the clock as it is** if the source takes no time, since nothing else of a
provider does. -/
theorem Source.Timeless.serve {p : Provider σ} (h : p.source.Timeless) (request : Request)
    (s : Provider.State σ) : (p.serve request s).2.world.now = s.world.now :=
  (h.truthful.serve request s).2

/-- Look-ups one by one take no time if one of them takes none. -/
theorem Source.now_fetchEach {source : String}
    {fetchOne : String → BackendOptions → Fetch σ RawValue} {options : BackendOptions}
    (h : ∀ name, (fetchOne name options).Timeless) (names : List String) (bulk : BulkFetch)
    (world : World σ) :
    (Source.fetchEach source fetchOne options bulk names world).2.now = world.now := by
  induction names generalizing bulk world with
  | nil => rfl
  | cons name rest ih =>
      have hnow := h name world
      rw [Source.fetchEach]
      rcases hfetch : fetchOne name options world with ⟨outcome, after⟩
      rw [hfetch] at hnow
      cases outcome with
      | ok value => exact (ih _ after).trans hnow
      | error e => exact (ih _ _).trans hnow

/-- Without a bulk look-up of its own, a source takes no time if its single look-ups and listings
take none. -/
theorem Source.timeless_ofSingles {name : String}
    {fetchOne : String → BackendOptions → Fetch σ RawValue}
    {fetchMany : String → BackendOptions → Fetch σ Listing}
    (hone : ∀ name options, (fetchOne name options).Timeless)
    (hmany : ∀ path options, (fetchMany path options).Timeless) :
    (Source.ofSingles name fetchOne fetchMany).Timeless where
  one := hone
  many := hmany
  bulk names options world := Source.now_fetchEach (fun name => hone name options) names {} world

/-! ### The stores -/

theorem ParameterStore.timeless (store : ParameterStore κ) : store.source.Timeless where
  one _ _ := Fetch.timeless_ofCall _
  many _ _ := Fetch.timeless_ofCall _
  bulk names options world := by
    have hnow := Fetch.timeless_ofCall
      (store.client.getParameters names (store.decrypts options) options) world
    simp only [source, fetchBulk]
    split
    · rename_i heq
      rwa [heq] at hnow
    · rename_i heq
      rwa [heq] at hnow

theorem SecretStore.timeless (store : SecretStore κ) : store.source.Timeless :=
  Source.timeless_ofSingles (fun _ _ => Fetch.timeless_ofCall _) (fun _ _ => Fetch.timeless_fail _)

theorem ConfigurationStore.timeless (store : ConfigurationStore κ) : store.source.Timeless :=
  Source.timeless_ofSingles (fun _ _ => Fetch.timeless_ofCall _) (fun _ _ => Fetch.timeless_fail _)

end CachedParameters
