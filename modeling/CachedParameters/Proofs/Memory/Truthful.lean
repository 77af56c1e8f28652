import CachedParameters.Proofs.Memory.Steady
import CachedParameters.Proofs.Provider.Origins
import CachedParameters.Proofs.Source.Truthful

/-!
# The parameter store in memory is truthful

Whatever calls are made to fail, the parameter store in memory brings nothing but what is read of
the parameters that it keeps, and no call changes those. A listing is put together from pages, so
the argument goes page by page.

So a provider over it makes no values up and does not go back in time. Every value that a look-up of
a name delivers stood in the store at some step of the run: that of the look-up itself, or an
earlier one less than the age allowed ago. The steps can be chosen so that look-ups of the same
request never go back from a newer one to an older one, whatever age each of them allows.

Between two look-ups anything may happen: the backend changes of a run are arbitrary, so they stand
for parameters that are written or removed as well as for calls that are made to fail.

## Main results

- `ParameterStore.truthful`: the parameter store in memory is truthful.
- `Memory.reads_traced`: every value that is delivered is traced to a step of the run.
-/

namespace CachedParameters

namespace Memory.Parameters

/-! ### What the client answers -/

/-- A call that is recorded keeps the parameters, whether it is made to fail or not. -/
theorem getParameter_reads (name : String) (decrypt : Bool) (s : Parameters) :
    (getParameter name decrypt s).2.parameters = s.parameters ∧
      ∀ value, (getParameter name decrypt s).1 = .ok value → s.read? name decrypt = some value := by
  rw [getParameter]
  obtain ⟨outcome, recorder⟩ := Recorder.record ("get_parameter:" ++ name) s.recorder
  cases outcome with
  | error e => exact ⟨rfl, forall_of_error⟩
  | ok _ =>
      dsimp only
      cases s.read? name decrypt with
      | none => exact ⟨rfl, forall_of_error⟩
      | some value => exact ⟨rfl, fun other hok => congrArg some (Except.ok.inj hok)⟩

/-- A page brings parameters that match. -/
theorem getPage_reads (request : PathRequest) (token : Option String) (s : Parameters) :
    (getPage request token s).2.parameters = s.parameters ∧
      ∀ answer, (getPage request token s).1 = .ok answer →
        ∀ entry ∈ answer.1, entry ∈ s.matching request := by
  rw [getPage]
  obtain ⟨outcome, recorder⟩ :=
    Recorder.record ("get_parameters_by_path:" ++ request.path) s.recorder
  cases outcome with
  | error e => exact ⟨rfl, forall_of_error⟩
  | ok _ =>
      dsimp only
      cases offset token with
      | error e => exact ⟨rfl, forall_of_error⟩
      | ok offset =>
          refine ⟨rfl, fun answer hok entry hentry => ?_⟩
          obtain rfl := Except.ok.inj hok
          exact List.mem_of_mem_take (List.mem_of_mem_drop hentry)

/-- Several parameters are looked up among those that are kept. -/
theorem getParameters_reads (names : List String) (decrypt : Bool) (s : Parameters) :
    (getParameters names decrypt s).2.parameters = s.parameters ∧
      ∀ batch, (getParameters names decrypt s).1 = .ok batch →
        batch = s.lookUpAll decrypt {} names := by
  rw [getParameters]
  obtain ⟨outcome, recorder⟩ :=
    Recorder.record ("get_parameters:" ++ ",".intercalate names) s.recorder
  cases outcome with
  | error e => exact ⟨rfl, forall_of_error⟩
  | ok _ =>
      dsimp only
      split
      · exact ⟨rfl, forall_of_error⟩
      · exact ⟨rfl, fun batch hok => (Except.ok.inj hok).symm⟩

/-- What matches a request is what is read of a parameter under the path. -/
theorem exists_of_mem_matching {request : PathRequest} {s : Parameters} {entry : String × String}
    (h : entry ∈ s.matching request) :
    ∃ parameter, s.parameters.get? entry.1 = some parameter ∧
      Path.isUnder request.path request.recursive entry.1 = true ∧
      entry.2 = parameter.reading request.decrypt := by
  obtain ⟨⟨name, parameter⟩, hkept, rfl⟩ := List.mem_map.mp h
  obtain ⟨hmem, hunder⟩ := List.mem_filter.mp hkept
  exact ⟨parameter, Dict.mem_entries_iff.mp hmem, hunder, rfl⟩

end Memory.Parameters

namespace ParameterStore

/-! ### Listings -/

/-- Whether a listing descends below the first level of its path. -/
def descends (options : BackendOptions) : Bool :=
  (options.flag BackendOptions.recursiveKey).getD false

/-- A value is what is read of the parameters under a name. -/
def Reads (store : ParameterStore Memory.Parameters) (parameters : Dict Memory.StoredParameter)
    (name : String) (options : BackendOptions) (raw : RawValue) : Prop :=
  store.reading parameters name options = .ok raw

/-- A listing holds what is read of parameters under the path, under their names relative to it. -/
def Lists (store : ParameterStore Memory.Parameters) (parameters : Dict Memory.StoredParameter)
    (path : String) (options : BackendOptions) (listing : Listing) : Prop :=
  ∀ subKey raw, listing.get? subKey = some raw → ∃ name,
    Path.isUnder path (descends options) name = true ∧ Path.relative path name = subKey ∧
      store.Reads parameters name options raw

variable {store : ParameterStore Memory.Parameters} {parameters : Dict Memory.StoredParameter}
  {path : String} {options : BackendOptions}

/-- What is read is a parameter that is kept. -/
theorem reads_iff {name : String} {raw : RawValue} :
    store.Reads parameters name options raw ↔
      ∃ parameter, parameters.get? name = some parameter ∧
        raw = .text (parameter.reading (store.decrypts options)) := by
  rw [Reads, reading]
  cases parameters.get? name with
  | none =>
      constructor
      · intro h
        cases h
      · rintro ⟨kept, hkept, -⟩
        cases hkept
  | some parameter =>
      constructor
      · intro h
        exact ⟨parameter, rfl, (Except.ok.inj h).symm⟩
      · rintro ⟨kept, hkept, rfl⟩
        rw [Option.some.inj hkept]

/-- A listing may be extended by a page of parameters under the path. -/
theorem Lists.addPage {page : List (String × String)}
    (hpage : ∀ entry ∈ page, Path.isUnder path (descends options) entry.1 = true ∧
      store.Reads parameters entry.1 options (.text entry.2))
    {listing : Listing} (h : store.Lists parameters path options listing) :
    store.Lists parameters path options (addPage path listing page) := by
  induction page generalizing listing with
  | nil => exact h
  | cons entry rest ih =>
      refine ih (fun other hother => hpage other (List.mem_cons_of_mem entry hother)) ?_
      intro subKey raw hraw
      rw [Dict.get?_insert] at hraw
      split at hraw
      · rename_i hsame
        obtain ⟨hunder, hread⟩ := hpage entry List.mem_cons_self
        rw [Option.some.inj hraw] at hread
        exact ⟨entry.1, hunder, hsame, hread⟩
      · exact h subKey raw hraw

/-- A listing reads the parameters under the path. -/
theorem fetchMany_reads (hclient : store.client = Memory.Parameters.client)
    (path : String) (options : BackendOptions) (s : Memory.Parameters) :
    (store.fetchMany path options s).2.parameters = s.parameters ∧
      ∀ listing, (store.fetchMany path options s).1 = .ok listing →
        store.Lists s.parameters path options listing := by
  rw [fetchMany, hclient]
  refine Pager.fold_keeps (fun later : Memory.Parameters => later.parameters = s.parameters)
    (fun page : List (String × String) => ∀ entry ∈ page,
      Path.isUnder path (descends options) entry.1 = true ∧
        store.Reads s.parameters entry.1 options (.text entry.2))
    (store.Lists s.parameters path options)
    (fun start later hlater => ?_) (fun listing page total hlisting hpage hok => ?_) ?_ none rfl
  · obtain ⟨hkept, hbrings⟩ := Memory.Parameters.getPage_reads
      ⟨path, descends options, store.decrypts options⟩ start later
    refine ⟨hkept.trans hlater, fun answer hok entry hentry => ?_⟩
    obtain ⟨parameter, hget, hunder, hread⟩ :=
      Memory.Parameters.exists_of_mem_matching (hbrings answer hok entry hentry)
    rw [hlater] at hget
    exact ⟨hunder, reads_iff.mpr ⟨parameter, hget, congrArg RawValue.text hread⟩⟩
  · obtain rfl := Except.ok.inj hok
    exact hlisting.addPage hpage
  · intro subKey raw hraw
    cases hraw

/-! ### The source -/

/-- **The parameter store in memory is truthful**: it brings what is read of the parameters that it
keeps, and reading does not change those. -/
theorem truthful (store : ParameterStore Memory.Parameters)
    (hclient : store.client = Memory.Parameters.client) :
    store.source.Truthful (·.parameters) store.Reads store.Lists where
  one name options world := by
    obtain ⟨hkept, hbrings⟩ := Memory.Parameters.getParameter_reads name (store.decrypts options)
      world.backend
    simp only [source, Fetch.ofCall, fetchOne, hclient, Memory.Parameters.client]
    rcases hcall : Memory.Parameters.getParameter name (store.decrypts options) world.backend with
      ⟨outcome, after⟩
    rw [hcall] at hkept hbrings
    cases outcome with
    | error e => exact ⟨hkept, trivial, forall_of_error⟩
    | ok value =>
        refine ⟨hkept, trivial, fun raw hok => ?_⟩
        obtain rfl := Except.ok.inj hok
        obtain ⟨parameter, hget, rfl⟩ := Option.map_eq_some_iff.mp (hbrings value rfl)
        exact reads_iff.mpr ⟨parameter, hget, rfl⟩
  many path options world := by
    obtain ⟨hkept, hlists⟩ := store.fetchMany_reads hclient path options world.backend
    exact ⟨hkept, rfl, hlists⟩
  bulk names options world := by
    obtain ⟨hkept, hbrings⟩ := Memory.Parameters.getParameters_reads names (store.decrypts options)
      world.backend
    simp only [source, fetchBulk, Fetch.ofCall, hclient, Memory.Parameters.client]
    rcases hcall : Memory.Parameters.getParameters names (store.decrypts options) world.backend with
      ⟨outcome, after⟩
    rw [hcall] at hkept hbrings
    cases outcome with
    | error e => exact ⟨hkept, rfl, forall_of_error⟩
    | ok batch =>
        refine ⟨hkept, rfl, fun bulk hok name raw hraw => ?_⟩
        obtain rfl := Except.ok.inj hok
        obtain rfl := hbrings batch rfl
        have hfound := (gathers_collect _ {} names).found_of_get? hraw
        obtain ⟨value, hvalue, rfl⟩ := Option.map_eq_some_iff.mp hfound
        have hread := (Memory.Parameters.gathers_lookUpAll world.backend (store.decrypts options) {}
          names).found_of_get? hvalue
        obtain ⟨parameter, hget, rfl⟩ := Option.map_eq_some_iff.mp hread
        exact reads_iff.mpr ⟨parameter, hget, rfl⟩

end ParameterStore

namespace Memory.Parameters

/-- The parameter store in memory, with what it does unless a call asks for decryption. -/
def store (defaultDecrypt : Bool) : ParameterStore Parameters := ⟨client, defaultDecrypt⟩

/-- The provider over a parameter store in memory. -/
def provider (defaultDecrypt : Bool) (maxAge : Duration) : Provider Parameters :=
  ⟨(store defaultDecrypt).source, maxAge⟩

theorem provider_truthful (defaultDecrypt : Bool) (maxAge : Duration) :
    (provider defaultDecrypt maxAge).source.Truthful (·.parameters) (store defaultDecrypt).Reads
      (store defaultDecrypt).Lists :=
  (store defaultDecrypt).truthful rfl

end Memory.Parameters

end CachedParameters

namespace CachedParameters.Memory

/-- A store keeps a parameter under a name that is read and decoded as a value. -/
def Parameters.Holds (s : Parameters) (defaultDecrypt : Bool) (name : String)
    (options : GetOptions) (value : ParameterValue) : Prop :=
  ∃ parameter, s.parameters.get? name = some parameter ∧
    (options.transform.resolve name).apply name
      (.text (parameter.reading ((store defaultDecrypt).decrypts options.backend))) = .ok value

/-- Every value that a run delivers is traced to a step of the run. -/
structure TracesReads (defaultDecrypt : Bool) (maxAge : Duration) (world : World Parameters)
    (steps : List (Step Parameters)) (origin : ℕ → ℕ) : Prop where
  /-- The value stood in the store at the step that it is traced to. -/
  held (n : ℕ) (name : String) (options : GetOptions) (value : ParameterValue) :
    (Parameters.provider defaultDecrypt maxAge).Delivered world steps n name options value →
      ((Parameters.provider defaultDecrypt maxAge).worldAt world steps (origin n)).backend.Holds
        defaultDecrypt name options value
  /-- That step is the one of the look-up, or an earlier one less than the age allowed ago. -/
  recent (n : ℕ) (name : String) (options : GetOptions) (value : ParameterValue) :
    (Parameters.provider defaultDecrypt maxAge).Delivered world steps n name options value →
      origin n = n ∨ origin n < n ∧
        ((Parameters.provider defaultDecrypt maxAge).worldAt world steps n).now.since
            ((Parameters.provider defaultDecrypt maxAge).worldAt world steps (origin n)).now <
          options.maxAge.getD maxAge
  /-- Of two look-ups of one name with the same resolved transform and the same backend options, the
  later one is not traced to an earlier step. -/
  forward (n m : ℕ) (name : String) (options later : GetOptions) (value newer : ParameterValue) :
    (Parameters.provider defaultDecrypt maxAge).Delivered world steps n name options value →
    (Parameters.provider defaultDecrypt maxAge).Delivered world steps m name later newer →
    options.transform.resolve name = later.transform.resolve name →
    options.backend = later.backend → n ≤ m → origin n ≤ origin m

/-- What is genuine under the key of a name stood in the store. -/
theorem Parameters.holds_of_genuine {defaultDecrypt : Bool} {maxAge : Duration}
    {origin : World Parameters} {name : String} {options : GetOptions} {value : ParameterValue}
    (h : (provider defaultDecrypt maxAge).GenuineIn (·.parameters) (store defaultDecrypt).Reads
      (store defaultDecrypt).Lists origin
      ((provider defaultDecrypt maxAge).singleKey name options) (.value value)) :
    origin.backend.Holds defaultDecrypt name options value := by
  obtain ⟨raw, hread, happly⟩ := h.read
  obtain ⟨parameter, hget, rfl⟩ := ParameterStore.reads_iff.mp hread
  exact ⟨parameter, hget, (Transform.apply_resolve ..).trans happly⟩

/-- **Reads are fresh and never go back.** In every run, whatever else happens to the provider, the
store and the clock, a value that a look-up of a name delivers stood in the store at that moment or
less than the age allowed before it, and look-ups of the same request are traced to steps that never
decrease. -/
theorem reads_traced (defaultDecrypt : Bool) (maxAge : Duration) (world : World Parameters)
    (steps : List (Step Parameters)) :
    ∃ origin, TracesReads defaultDecrypt maxAge world steps origin := by
  have hsource := Parameters.provider_truthful defaultDecrypt maxAge
  refine ⟨(Parameters.provider defaultDecrypt maxAge).origin world steps, ?_, ?_, ?_⟩
  · intro n name options value hdelivered
    exact Parameters.holds_of_genuine (hdelivered.traced hsource).1
  · intro n name options value hdelivered
    exact (hdelivered.traced hsource).2
  · intro n m name options later value newer hdelivered hlater htransform hbackend hle
    refine hdelivered.origin_le hlater ?_ hle
    rw [Provider.singleKey, Provider.singleKey, htransform, hbackend]

/-- A value that was overwritten is delivered while it is young enough, and no longer. -/
example :
    let p := Parameters.provider false (.ofSeconds 5)
    let s := (p.run { backend := Parameters.put {} "a" "1" false, now := .zero }
      [.serve (.get "a" {}), .backend (·.put "a" "2" false), .clock ⟨4000000000⟩]).state
    (p.get "a" {} s).1 = .ok (.text "1") ∧
      (p.get "a" { maxAge := some (.ofSeconds 4) } s).1 = .ok (.text "2") :=
  ⟨rfl, rfl⟩

end CachedParameters.Memory
