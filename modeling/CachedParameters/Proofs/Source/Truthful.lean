import CachedParameters.Proofs.Batch.Kept
import CachedParameters.Proofs.Provider.Retrievals

/-!
# Truthful sources

A source is truthful if what it brings was read from the contents of its backend, and reading
changes neither the contents nor the time. Calls may fail for any reason: nothing is said about when
a call succeeds, which is what sets a truthful source apart from a steady one. What is **genuine**
under a key is what can be read and decoded for the requests of the key, so whatever a provider
retrieves from a truthful source is genuine at that moment.

## Main results

- `Source.Truthful.serve`: a request leaves the contents and the time as they are.
- `Source.Truthful.genuine_of_mem_retrievals`: what a request retrieves is genuine.
- `Provider.BringsGenuine.served_or_genuine`, `Source.Truthful.getByName_served_or_genuine`: what a
  request delivers was served by the cache, or is genuine.
-/

namespace CachedParameters

open Batch

variable {σ γ α : Type}

/-- A fetch only reads: it leaves the contents and the time as they are, and what it brings goes
with the contents. -/
def Fetch.Reads (fetch : Fetch σ α) (contents : σ → γ) (brings : γ → α → Prop) : Prop :=
  ∀ world, contents (fetch world).2.backend = contents world.backend ∧
    (fetch world).2.now = world.now ∧
    ∀ fetched, (fetch world).1 = .ok fetched → brings (contents world.backend) fetched

/-- A failure brings nothing, so whatever it brings is right. -/
theorem forall_of_error {ε : Type} {e : ε} {brings : α → Prop} :
    ∀ fetched, (.error e : Except ε α) = .ok fetched → brings fetched := by
  intro fetched hok
  cases hok

/-- Taking off the notes of a fetch that only reads leaves one. -/
theorem Fetch.Reads.quiet {fetch : Fetch σ α} {contents : σ → γ} {brings : γ → α → Prop}
    (h : fetch.Reads contents brings) : fetch.quiet.Reads contents brings :=
  fun world => h { world with notes := [] }

/-- Everything that a source brings was read from the contents of its backend: the value of a name
by `reads`, the values under a path by `lists`. A bulk look-up reads each of the values that it
finds. -/
structure Source.Truthful (source : Source σ) (contents : σ → γ)
    (reads : γ → String → BackendOptions → RawValue → Prop)
    (lists : γ → String → BackendOptions → Listing → Prop) : Prop where
  one (name : String) (options : BackendOptions) :
    (source.fetchOne name options).Reads contents fun c raw => reads c name options raw
  many (path : String) (options : BackendOptions) :
    (source.fetchMany path options).Reads contents fun c listing => lists c path options listing
  bulk (names : List String) (options : BackendOptions) :
    (source.fetchBulk names options).Reads contents fun c bulk =>
      ∀ name raw, bulk.values.get? name = some raw → reads c name options raw

/-- What belongs under a key: under that of a name its decoded value, under that of a path its
decoded values. The transform in the key of a name is resolved, while `transform` need not be. -/
inductive Genuine (source : String) (reads : String → BackendOptions → RawValue → Prop)
    (lists : String → BackendOptions → Listing → Prop) : CacheKey → Cached → Prop where
  | value {name : String} {options : BackendOptions} {raw : RawValue} {value : ParameterValue}
      (transform : Transform) :
      reads name options raw → transform.apply name raw = .ok value →
        Genuine source reads lists (.single source name (transform.resolve name) options)
          (.value value)
  | values {path : String} {options : BackendOptions} {listing : Listing} {values : PathValues}
      (transform : Transform) (strict : Bool) :
      lists path options listing → listing.decode transform strict = .ok values →
        Genuine source reads lists (.multiple source path transform strict options)
          (.values values)

section Genuine

variable {source : String} {reads : String → BackendOptions → RawValue → Prop}
  {lists : String → BackendOptions → Listing → Prop}

/-- What is genuine under the key of a name was read for that name with the same options. -/
theorem Genuine.read {name : String} {transform : Transform} {options : BackendOptions}
    {value : ParameterValue}
    (h : Genuine source reads lists (.single source name (transform.resolve name) options)
      (.value value)) :
    ∃ raw, reads name options raw ∧ transform.apply name raw = .ok value := by
  generalize hkey : CacheKey.single source name (transform.resolve name) options = key at h
  cases h with
  | value other hread happly =>
      obtain ⟨-, rfl, hresolve, rfl⟩ := CacheKey.single_inj.mp hkey
      refine ⟨_, hread, ?_⟩
      rw [← Transform.apply_resolve, hresolve, Transform.apply_resolve]
      exact happly

/-- What is genuine under the key of a path was read for that path with the same options. -/
theorem Genuine.listed {path : String} {transform : Transform} {strict : Bool}
    {options : BackendOptions} {values : PathValues}
    (h : Genuine source reads lists (.multiple source path transform strict options)
      (.values values)) :
    ∃ listing, lists path options listing ∧ listing.decode transform strict = .ok values := by
  generalize hkey : CacheKey.multiple source path transform strict options = key at h
  cases h with
  | values other otherStrict hlist hdecode =>
      obtain ⟨-, rfl, rfl, rfl, rfl⟩ := CacheKey.multiple_inj.mp hkey
      exact ⟨_, hlist, hdecode⟩

end Genuine

namespace Provider

/-- An inquiry only reads, and what it brings and decodes goes, by the contents, under its key. -/
def BringsGenuine {ρ : Type} (p : Provider σ) (q : Inquiry ρ α) (contents : σ → γ)
    (reads : γ → String → BackendOptions → RawValue → Prop)
    (lists : γ → String → BackendOptions → Listing → Prop) : Prop :=
  (q.call p.source).Reads contents fun c raw => ∀ found, q.decode raw = .ok found →
    Genuine p.source.name (reads c) (lists c) (q.key p.source.name) (q.keep found)

section BringsGenuine

variable {ρ : Type} {p : Provider σ} {q : Inquiry ρ α} {contents : σ → γ}
  {reads : γ → String → BackendOptions → RawValue → Prop}
  {lists : γ → String → BackendOptions → Listing → Prop}

/-- Such an inquiry leaves the contents and the time as they are. -/
theorem BringsGenuine.inquire (h : BringsGenuine p q contents reads lists) (s : State σ) :
    contents (p.inquire q s).2.world.backend = contents s.world.backend ∧
      (p.inquire q s).2.world.now = s.world.now := by
  cases hknown : p.known? q s with
  | some found =>
      rw [inquire_of_known hknown]
      exact ⟨rfl, rfl⟩
  | none =>
      obtain ⟨hsame, hnow, -⟩ := h.quiet s.world
      rw [(inquire_of_unknown hknown).2.1]
      exact ⟨hsame, hnow⟩

/-- What it yields was served by the cache, or is genuine. -/
theorem BringsGenuine.served_or_genuine (h : BringsGenuine p q contents reads lists)
    {s : State σ} {found : α} (hok : (p.inquire q s).1 = .ok found) :
    p.known? q s = some found ∨
      Genuine p.source.name (reads (contents s.world.backend)) (lists (contents s.world.backend))
        (q.key p.source.name) (q.keep found) := by
  cases hknown : p.known? q s with
  | some known =>
      rw [inquire_of_known hknown] at hok
      exact .inl (congrArg some (Except.ok.inj hok))
  | none =>
      obtain ⟨-, -, hbrings⟩ := h.quiet s.world
      have hbrought : (p.bring q s.world).1 = .ok found :=
        (inquire_of_unknown hknown).1.symm.trans hok
      obtain ⟨raw, hfetch, hdecode⟩ := exists_of_bind_eq_ok hbrought
      exact .inr (hbrings raw hfetch found hdecode)

/-- What a request that is such an inquiry retrieves is genuine, and retrieved at once. -/
theorem BringsGenuine.mem_retrievals (h : BringsGenuine p q contents reads lists)
    {request : Request} {reply : Except Error α → Reply} (hposes : request.Poses q reply)
    {s : State σ} {retrieval : Retrieval}
    (hmem : retrieval ∈ request.retrievals p.source.name (p.exchanges request s)) :
    Genuine p.source.name (reads (contents s.world.backend)) (lists (contents s.world.backend))
        retrieval.key retrieval.content ∧
      retrieval.time = s.world.now := by
  cases hknown : p.known? q s with
  | some found =>
      rw [hposes.retrievals_of_known hknown] at hmem
      exact absurd hmem List.not_mem_nil
  | none =>
      rw [hposes.retrievals_of_unknown hknown] at hmem
      obtain ⟨-, hnow, hbrings⟩ := h.quiet s.world
      obtain ⟨raw, found, hfetch, hdecode, rfl⟩ :=
        exists_of_bind_map_eq_ok (List.mem_singleton.mp (mem_of_mem_successes hmem)).symm
      exact ⟨hbrings raw hfetch found hdecode, hnow⟩

end BringsGenuine

end Provider

/-- A name is found if the answer has it and it can be decoded. -/
theorem Batch.Pending.exists_of_fate_eq_found {pending : Pending}
    {outcome : Except Error BulkFetch} {value : ParameterValue}
    (h : pending.fate outcome = .found value) :
    ∃ bulk raw, outcome = .ok bulk ∧ bulk.values.get? pending.name = some raw ∧
      pending.transform.apply pending.name raw = .ok value := by
  cases outcome with
  | error e => cases h
  | ok bulk =>
      rw [Pending.fate] at h
      cases hget : bulk.values.get? pending.name with
      | none =>
          rw [hget] at h
          cases h
      | some raw =>
          rw [hget] at h
          dsimp only at h
          cases happly : pending.transform.apply pending.name raw with
          | error e =>
              rw [happly] at h
              cases h
          | ok decoded =>
              rw [happly] at h
              obtain rfl := Fate.found.inj h
              exact ⟨bulk, raw, rfl, hget, happly⟩

namespace Source.Truthful

open Provider

variable {p : Provider σ} {contents : σ → γ}
  {reads : γ → String → BackendOptions → RawValue → Prop}
  {lists : γ → String → BackendOptions → Listing → Prop}

/-! ### The calls of a plan -/

/-- The calls of a plan leave the contents and the time as they are. -/
theorem answers_world (h : p.source.Truthful contents reads lists) (strict : Bool)
    (calls : List BulkCall) (world : World σ) :
    contents (p.answers strict calls world).2.backend = contents world.backend ∧
      (p.answers strict calls world).2.now = world.now := by
  induction calls generalizing world with
  | nil => exact ⟨rfl, rfl⟩
  | cons call rest ih =>
      obtain ⟨hsame, hnow, -⟩ := (h.bulk call.names call.options).quiet world
      obtain ⟨hrest, hlast⟩ :=
        ih ((p.source.fetchBulk call.names call.options).quiet world).2
      simp only [answers]
      split
      · exact ⟨hsame, hnow⟩
      · exact ⟨hrest.trans hsame, hlast.trans hnow⟩

/-- Every answer to a plan came at once and was read from the contents. -/
theorem answers_read (h : p.source.Truthful contents reads lists) (strict : Bool)
    (calls : List BulkCall) (world : World σ) :
    ∀ answered ∈ (p.answers strict calls world).1, answered.time = world.now ∧
      ∀ bulk, answered.outcome = .ok bulk → ∀ name raw, bulk.values.get? name = some raw →
        reads (contents world.backend) name answered.call.options raw := by
  induction calls generalizing world with
  | nil => exact fun answered hmem => absurd hmem List.not_mem_nil
  | cons call rest ih =>
      obtain ⟨hsame, hnow, hbrings⟩ := (h.bulk call.names call.options).quiet world
      have hrest := ih ((p.source.fetchBulk call.names call.options).quiet world).2
      rw [hsame, hnow] at hrest
      simp only [answers]
      split
      · intro answered hmem
        obtain rfl := List.mem_singleton.mp hmem
        exact ⟨hnow, hbrings⟩
      · intro answered hmem
        rcases List.mem_cons.mp hmem with rfl | hmem
        · exact ⟨hnow, hbrings⟩
        · exact hrest answered hmem

/-- The value that a batch found for a name is genuine, and was found at once. -/
theorem genuine_of_found (h : p.source.Truthful contents reads lists)
    {parameters : List (String × Overrides)} {options : BatchOptions} {s : Provider.State σ}
    {x : Settled} (hx : x ∈ p.settled parameters options s) {value : ParameterValue}
    (hfound : x.fate = .found value) :
    Genuine p.source.name (reads (contents s.world.backend)) (lists (contents s.world.backend))
        x.pending.key (.value value) ∧
      x.time = s.world.now := by
  obtain ⟨answered, hanswered, hx⟩ := List.mem_flatMap.mp hx
  obtain ⟨pending, hpending, rfl⟩ := List.mem_map.mp hx
  obtain ⟨hnow, hread⟩ := h.answers_read _ _ _ answered hanswered
  obtain ⟨bulk, raw, houtcome, hget, happly⟩ := Pending.exists_of_fate_eq_found hfound
  have hcall : answered.call ∈ p.planned parameters options s :=
    (p.answered_prefix parameters options s).subset (List.mem_map_of_mem hanswered)
  obtain ⟨⟨name, overrides⟩, -, hdeferred⟩ :=
    p.exists_of_mem_planned parameters options s hcall hpending
  have hoptions : (options.forName overrides).backend = answered.call.options :=
    congrArg Deferred.options hdeferred
  obtain rfl : _ = pending := congrArg Deferred.pending hdeferred
  have hgenuine := hread bulk houtcome _ raw hget
  rw [← hoptions] at hgenuine
  simp only [deferredOf, Transform.apply_resolve] at happly
  exact ⟨.value (options.forName overrides).transform hgenuine happly, hnow⟩

/-! ### Inquiries -/

/-- What the look-up of a name brings is genuine. -/
theorem bringsGenuine_ofName (h : p.source.Truthful contents reads lists) (name : String)
    (options : GetOptions) : BringsGenuine p (.ofName name options) contents reads lists :=
  fun world => by
    obtain ⟨hsame, hnow, hbrings⟩ := h.one name options.backend world
    exact ⟨hsame, hnow, fun raw hfetch value happly =>
      .value options.transform (hbrings raw hfetch) happly⟩

/-- So is what the look-up of a path brings. -/
theorem bringsGenuine_ofPath (h : p.source.Truthful contents reads lists) (path : String)
    (options : GetOptions) : BringsGenuine p (.ofPath .byName path options) contents reads lists :=
  fun world => by
    obtain ⟨hsame, hnow, hbrings⟩ := h.many path options.backend world
    exact ⟨hsame, hnow, fun listing hfetch values hdecode =>
      .values options.transform options.strict (hbrings listing hfetch) hdecode⟩

/-! ### One request -/

/-- **A request leaves the contents and the time as they are.** What a truthful source changes when
it is called, such as a record of calls, is no part of the contents. -/
theorem serve (h : p.source.Truthful contents reads lists) (request : Request)
    (s : Provider.State σ) :
    contents (p.serve request s).2.world.backend = contents s.world.backend ∧
      (p.serve request s).2.world.now = s.world.now := by
  cases request with
  | get name options =>
      rw [(Request.Poses.ofName name options).serve]
      exact (h.bringsGenuine_ofName name options).inquire s
  | getMultiple path options =>
      rw [(Request.Poses.ofPath path options).serve]
      exact (h.bringsGenuine_ofPath path options).inquire s
  | getByName parameters options =>
      by_cases hreserved : errorsKey ∈ (requested parameters).names
      · rw [Provider.serve, getByName_of_reserved hreserved]
        exact ⟨rfl, rfl⟩
      · have hworld : (p.serve (.getByName parameters options) s).2.world = _ :=
          (getByName_eq hreserved).2.1
        rw [hworld]
        exact h.answers_world _ _ _
  | clear => exact ⟨rfl, rfl⟩

/-- **What a request retrieves is genuine**, and retrieved at once. -/
theorem genuine_of_mem_retrievals (h : p.source.Truthful contents reads lists) {request : Request}
    {s : Provider.State σ} {retrieval : Retrieval}
    (hmem : retrieval ∈ request.retrievals p.source.name (p.exchanges request s)) :
    Genuine p.source.name (reads (contents s.world.backend)) (lists (contents s.world.backend))
        retrieval.key retrieval.content ∧
      retrieval.time = s.world.now := by
  cases request with
  | get name options =>
      exact (h.bringsGenuine_ofName name options).mem_retrievals (.ofName name options) hmem
  | getMultiple path options =>
      exact (h.bringsGenuine_ofPath path options).mem_retrievals (.ofPath path options) hmem
  | getByName parameters options =>
      have hattempt := mem_of_mem_successes hmem
      by_cases hreserved : errorsKey ∈ (requested parameters).names
      · rw [exchanges_getByName_of_reserved hreserved] at hattempt
        exact absurd hattempt List.not_mem_nil
      · rw [exchanges_getByName hreserved, flatMap_attempts] at hattempt
        obtain ⟨x, hx, hretrieved⟩ := List.mem_filterMap.mp hattempt
        rw [Settled.attempt?] at hretrieved
        cases hfate : x.fate with
        | found value =>
            rw [hfate] at hretrieved
            obtain rfl := Except.ok.inj (Option.some.inj hretrieved)
            exact h.genuine_of_found hx hfate
        | missing =>
            rw [hfate] at hretrieved
            cases hretrieved
        | failed e =>
            rw [hfate] at hretrieved
            cases hretrieved
  | clear => exact absurd (mem_of_mem_successes hmem) List.not_mem_nil

/-! ### What is delivered -/

/-- The value of a name in a batch was served by the cache, or is genuine. -/
theorem getByName_served_or_genuine (h : p.source.Truthful contents reads lists)
    {parameters : List (String × Overrides)} {options : BatchOptions} {s : Provider.State σ}
    {result : BatchResult} (hok : (p.getByName parameters options s).1 = .ok result)
    {name : String} {overrides : Overrides} {value : ParameterValue}
    (hname : (requested parameters).get? name = some overrides)
    (hvalue : result.values.get? name = some value) :
    p.cachedValue? name (options.forName overrides) s = some value ∨
      Genuine p.source.name (reads (contents s.world.backend)) (lists (contents s.world.backend))
        (p.singleKey name (options.forName overrides)) (.value value) := by
  rw [eq_collected_of_ok hok, collected_value_iff] at hvalue
  rcases List.mem_append.mp hvalue with hhit | hsettled
  · obtain ⟨⟨_, _⟩, hhit, heq⟩ := List.mem_map.mp hhit
    obtain ⟨⟨other, others⟩, hentry, hserved⟩ := List.mem_filterMap.mp hhit
    obtain ⟨cached, hcached, hpair⟩ := Option.map_eq_some_iff.mp hserved
    obtain ⟨rfl, rfl⟩ := Prod.mk.inj hpair
    obtain ⟨rfl, hsome⟩ := Prod.mk.inj heq
    rw [Dict.mem_entries_iff.mp hentry] at hname
    rw [← Option.some.inj hname, ← hsome]
    exact .inl hcached
  · obtain ⟨x, hx, houtcome⟩ := List.mem_map.mp hsettled
    obtain ⟨rfl, hfate⟩ := Prod.mk.inj houtcome
    obtain ⟨⟨other, others⟩, hentry, hpending⟩ := exists_of_mem_settled hx
    have hfound : x.fate = .found value := by
      cases hcase : x.fate with
      | found found =>
          rw [hcase] at hfate
          rw [Option.some.inj hfate]
      | missing =>
          rw [hcase] at hfate
          cases hfate
      | failed e =>
          rw [hcase] at hfate
          cases hfate
    have hgenuine := (h.genuine_of_found hx hfound).1
    rw [← hpending] at hname hgenuine ⊢
    have hsame := Dict.mem_entries_iff.mp (List.mem_of_mem_filter hentry)
    rw [deferredOf, hsame] at hname
    rw [← Option.some.inj hname]
    exact .inr hgenuine

end Source.Truthful

end CachedParameters
