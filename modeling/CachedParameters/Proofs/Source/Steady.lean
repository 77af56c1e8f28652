import CachedParameters.Proofs.Batch.Tally

/-!
# Steady sources

A source is steady as long as its backend stands: it answers every call from the same values, which
a single look-up and a bulk look-up agree on, and no time passes. Nothing is said about how the
source finds the values, so a source that asks for names one by one is steady as soon as its single
look-ups are.

## Main results

- `Source.Steady.ofSingles`: a source without a bulk look-up of its own.
- `Source.Steady.get_eq`: what a look-up of a name does over a steady source.
- `Source.Steady.answers`: what a plan brings over a steady source.
-/

namespace CachedParameters

open Batch

variable {σ : Type}

/-- As long as the backend stands, a source answers from the same values, without taking time: a
single look-up reads the value, and a bulk look-up within the limit finds exactly the values that
can be read. The backend stands as before. -/
structure Source.Steady (source : Source σ) (stands : σ → Prop)
    (read : String → BackendOptions → Except Error RawValue) : Prop where
  one (name : String) (options : BackendOptions) (world : World σ) : stands world.backend →
    (source.fetchOne name options world).1 = read name options ∧
      stands (source.fetchOne name options world).2.backend ∧
      (source.fetchOne name options world).2.now = world.now
  bulk (names : List String) (options : BackendOptions) (world : World σ) :
    stands world.backend → (∀ limit ∈ source.bulkLimit, names.length ≤ max 1 limit) →
      ∃ bulk, (source.fetchBulk names options world).1 = .ok bulk ∧
        (∀ name ∈ names, bulk.values.get? name = (read name options).toOption) ∧
        stands (source.fetchBulk names options world).2.backend ∧
        (source.fetchBulk names options world).2.now = world.now

/-! ### Sources that ask one by one -/

section OneByOne

variable {fetchOne : String → BackendOptions → Fetch σ RawValue} {stands : σ → Prop}
  {read : String → BackendOptions → Except Error RawValue}

/-- Looking up names one by one finds exactly the values that can be read. -/
theorem fetchEach_steady
    (hone : ∀ name options world, stands world.backend →
      (fetchOne name options world).1 = read name options ∧
        stands (fetchOne name options world).2.backend ∧
        (fetchOne name options world).2.now = world.now)
    (source : String) (options : BackendOptions) (bulk : BulkFetch) (names : List String)
    (world : World σ) (hstands : stands world.backend) :
    Dict.Gathers (fun name => (read name options).toOption) names bulk.values
        (Source.fetchEach source fetchOne options bulk names world).1.values ∧
      stands (Source.fetchEach source fetchOne options bulk names world).2.backend ∧
      (Source.fetchEach source fetchOne options bulk names world).2.now = world.now := by
  induction names generalizing bulk world with
  | nil => exact ⟨.nil _ _, hstands, rfl⟩
  | cons first rest ih =>
      obtain ⟨hread, hafter, hnow⟩ := hone first options world hstands
      rw [Source.fetchEach]
      generalize fetchOne first options world = answer at hread hafter hnow ⊢
      obtain ⟨outcome, after⟩ := answer
      dsimp only at hread hafter hnow
      subst hread
      cases hfirst : read first options with
      | ok value =>
          obtain ⟨hvalues, hlast, hlater⟩ :=
            ih { bulk with values := bulk.values.insert first value } after hafter
          have hfound : (read first options).toOption = some value := by rw [hfirst]; rfl
          exact ⟨.cons_some hfound hvalues, hlast, hlater.trans hnow⟩
      | error e =>
          obtain ⟨hvalues, hlast, hlater⟩ :=
            ih { bulk with failed := bulk.failed ++ [first] }
              { after with notes := after.notes ++ [.memberFailed source first e] } hafter
          have hmissing : (read first options).toOption = none := by rw [hfirst]; rfl
          exact ⟨.cons_none hmissing hvalues, hlast, hlater.trans hnow⟩

/-- **A source without a bulk look-up of its own** is steady if its single look-ups are. -/
theorem Source.Steady.ofSingles (name : String)
    (fetchMany : String → BackendOptions → Fetch σ Listing)
    (hone : ∀ name options world, stands world.backend →
      (fetchOne name options world).1 = read name options ∧
        stands (fetchOne name options world).2.backend ∧
        (fetchOne name options world).2.now = world.now) :
    (Source.ofSingles name fetchOne fetchMany).Steady stands read where
  one := hone
  bulk names options world hstands _ := by
    obtain ⟨hvalues, hlast, hnow⟩ := fetchEach_steady hone name options {} names world hstands
    exact ⟨_, rfl, fun other hmem => hvalues.get?_of_mem hmem, hlast, hnow⟩

end OneByOne

/-! ### Providers over a steady source -/

namespace Source.Steady

variable {p : Provider σ} {stands : σ → Prop}
  {read : String → BackendOptions → Except Error RawValue}

/-- A look-up of a name over a steady source reads the value unless the cache serves it. The backend
stands, no time passes, and the cache is as after reading. -/
theorem get_eq (h : p.source.Steady stands read) (name : String) (options : GetOptions)
    {s : Provider.State σ} (hstands : stands s.world.backend) :
    (p.get name options s).1 =
        (match p.cachedValue? name options s with
        | some value => .ok value
        | none => (read name options.backend).bind (options.transform.apply name)) ∧
      (p.get name options s).2.cache =
        (match p.cachedValue? name options s with
        | some _ => s.cache
        | none => s.cache.keep (p.singleKey name options) s.world.now
            (((read name options.backend).bind (options.transform.apply name)).map .value)) ∧
      stands (p.get name options s).2.world.backend ∧
      (p.get name options s).2.world.now = s.world.now := by
  cases hcached : p.cachedValue? name options s with
  | some value =>
      rw [Provider.get_of_cached hcached]
      exact ⟨rfl, rfl, hstands, rfl⟩
  | none =>
      obtain ⟨hreply, hworld, hcache⟩ := Provider.get_of_missed hcached
      obtain ⟨hread, hafter, hnow⟩ :=
        h.one name options.backend { s.world with notes := [] } hstands
      have houtcome : (p.bring (.ofName name options) s.world).1 =
          (read name options.backend).bind (options.transform.apply name) :=
        congrArg (·.bind (options.transform.apply name)) hread
      have htime : (p.bring (.ofName name options) s.world).2.now = s.world.now := hnow
      rw [hreply, hcache, hworld, houtcome, htime]
      exact ⟨rfl, rfl, hafter, rfl⟩

/-- **What a plan brings over a steady source**: every call finds exactly the values that can be
read. -/
theorem answers (h : p.source.Steady stands read) (calls : List BulkCall)
    (hlimit : ∀ call ∈ calls, ∀ limit ∈ p.source.bulkLimit, call.lookups.length ≤ max 1 limit)
    {world : World σ} (hstands : stands world.backend) :
    ∀ answered ∈ (p.answers false calls world).1, answered.time = world.now ∧
      ∃ bulk, answered.outcome = .ok bulk ∧ ∀ name ∈ answered.call.names,
        bulk.values.get? name = (read name answered.call.options).toOption := by
  induction calls generalizing world with
  | nil => exact fun answered hmem => absurd hmem List.not_mem_nil
  | cons call rest ih =>
      have hnames : ∀ limit ∈ p.source.bulkLimit, call.names.length ≤ max 1 limit := by
        rw [BulkCall.names, List.length_map]
        exact hlimit call List.mem_cons_self
      obtain ⟨bulk, hbulk, hvalues, hafter, hnow⟩ :=
        h.bulk call.names call.options { world with notes := [] } hstands hnames
      have hquiet :
        stands ((p.source.fetchBulk call.names call.options).quiet world).2.backend := hafter
      have hrest := fun other hmem => hlimit other (List.mem_cons_of_mem call hmem)
      rw [Provider.answers_cons rfl fun hstrict => Bool.noConfusion hstrict]
      rintro answered hmem
      rcases List.mem_cons.mp hmem with rfl | hmem
      · exact ⟨hnow, bulk, hbulk, hvalues⟩
      · obtain ⟨htime, hbrought⟩ := ih hrest hquiet answered hmem
        exact ⟨htime.trans hnow, hbrought⟩

end Source.Steady

end CachedParameters
