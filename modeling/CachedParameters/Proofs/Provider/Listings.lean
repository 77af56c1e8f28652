import CachedParameters.Proofs.Provider.Origins
import CachedParameters.Proofs.Store.Failures

/-!
# Strict and tolerant listings

A listing that `get_multiple` has fetched is decoded entry by entry, in no particular order. A
tolerant look-up lists every entry and marks those that cannot be decoded with `none`; a strict one
(`raise_on_transform_error`) fails if there is any such entry, and the order only decides which
failure it reports. Both may be kept at the same time, since a key tells them apart. So the
invariant of a run is about the cache: what is kept for a strict listing is unmarked,
`Cache.StrictUnmarked`. A request keeps it by `Provider.serve_cache`, and a run by induction, in
which every listing may be decoded in an order of its own.

## Main results

- `Listing.decodeIn_tolerant`, `Listing.decodeIn_strict_of_decodable`,
  `Listing.decodeIn_strict_of_not_decodable`: what becomes of a listing, in whatever order.
- `Provider.runIn_strictUnmarked`: what is kept for strict listings is unmarked, after every run.
- `Provider.getMultipleIn_unmarked`: a strict listing is delivered without marks.
- `Provider.getMultipleIn_tolerant_fails`: a tolerant listing fails to be fetched, if at all.
- `Provider.decodesListings`: all of this in one place.
-/

namespace CachedParameters

/-! ### Decoded listings -/

namespace Listing

/-- Every sub-key of a listing has its value, or the mark `none` if that cannot be decoded. -/
def DecodesTo (listing : Listing) (transform : Transform) (values : PathValues) : Prop :=
  ∀ subKey, values.get? subKey =
    (listing.get? subKey).map fun raw => (transform.apply subKey raw).toOption

/-- Every entry of a listing can be decoded. -/
def Decodable (listing : Listing) (transform : Transform) : Prop :=
  ∀ subKey raw, listing.get? subKey = some raw → ∃ value, transform.apply subKey raw = .ok value

/-- The values of a listing are decoded as the listing is. -/
theorem decodesTo_mapEntries (listing : Listing) (transform : Transform) :
    listing.DecodesTo transform
      (listing.mapEntries fun subKey raw => (transform.apply subKey raw).toOption) :=
  fun subKey => Dict.get?_mapEntries _ listing subKey

/-- The entries of a listing are the ones that are gone through in any order. -/
theorem mem_arranged {listing : Listing} (arrangement : Arrangement) {subKey : String}
    {raw : RawValue} :
    (subKey, raw) ∈ arrangement.entries listing ↔ listing.get? subKey = some raw := by
  rw [(arrangement.perm listing).mem_iff, Dict.mem_entries_iff]

/-- What is decoded successfully holds every sub-key with what became of its value; if it is strict,
all of them could be decoded. -/
theorem of_decodeIn_ok {arrangement : Arrangement} {transform : Transform} {strict : Bool}
    {listing : Listing} {values : PathValues}
    (h : listing.decodeIn arrangement transform strict = .ok values) :
    listing.DecodesTo transform values ∧ (strict = true → listing.Decodable transform) := by
  rw [decodeIn] at h
  split at h
  · cases h
  · rename_i hnone
    obtain rfl := Except.ok.inj h
    refine ⟨listing.decodesTo_mapEntries transform, ?_⟩
    rintro rfl subKey raw hget
    have hentry := List.findSome?_eq_none_iff.mp hnone _ ((mem_arranged arrangement).mpr hget)
    rw [if_pos rfl] at hentry
    cases happly : transform.apply subKey raw with
    | ok value => exact ⟨value, rfl⟩
    | error e =>
        rw [happly] at hentry
        cases hentry

/-- A listing fails to be decoded only if it is strict, and then as one of its entries does. -/
theorem of_decodeIn_error {arrangement : Arrangement} {transform : Transform} {strict : Bool}
    {listing : Listing} {e : Error}
    (h : listing.decodeIn arrangement transform strict = .error e) :
    strict = true ∧ ∃ subKey raw, listing.get? subKey = some raw ∧
      transform.apply subKey raw = .error e := by
  rw [decodeIn] at h
  split at h
  · rename_i failure hfailure
    obtain rfl := Except.error.inj h
    obtain ⟨⟨subKey, raw⟩, hmem, hentry⟩ := List.exists_of_findSome?_eq_some hfailure
    cases strict with
    | false => cases hentry
    | true =>
        refine ⟨rfl, subKey, raw, (mem_arranged arrangement).mp hmem, ?_⟩
        rw [if_pos rfl] at hentry
        cases happly : transform.apply subKey raw with
        | ok value =>
            rw [happly] at hentry
            cases hentry
        | error other =>
            rw [happly] at hentry
            rw [Option.some.inj hentry]
  · cases h

/-- A tolerant listing is decoded whatever it holds: the only failure that decoding knows is the one
that strict mode asks for. -/
theorem decodeIn_tolerant (arrangement : Arrangement) (transform : Transform)
    (listing : Listing) :
    ∃ values, listing.decodeIn arrangement transform false = .ok values ∧
      listing.DecodesTo transform values := by
  cases hdecode : listing.decodeIn arrangement transform false with
  | ok values => exact ⟨values, rfl, (of_decodeIn_ok hdecode).1⟩
  | error e => exact absurd (of_decodeIn_error hdecode).1 Bool.false_ne_true

/-- A strict listing whose entries can all be decoded is decoded. -/
theorem decodeIn_strict_of_decodable (arrangement : Arrangement) {transform : Transform}
    {listing : Listing} (h : listing.Decodable transform) :
    ∃ values, listing.decodeIn arrangement transform true = .ok values ∧
      listing.DecodesTo transform values := by
  cases hdecode : listing.decodeIn arrangement transform true with
  | ok values => exact ⟨values, rfl, (of_decodeIn_ok hdecode).1⟩
  | error e =>
      obtain ⟨-, subKey, raw, hget, hfails⟩ := of_decodeIn_error hdecode
      obtain ⟨value, happly⟩ := h subKey raw hget
      rw [happly] at hfails
      cases hfails

/-- Any other strict listing fails, as one of its entries does. Which one it is depends on the order
in which the entries are decoded. -/
theorem decodeIn_strict_of_not_decodable (arrangement : Arrangement) {transform : Transform}
    {listing : Listing} (h : ¬ listing.Decodable transform) :
    ∃ e, listing.decodeIn arrangement transform true = .error e ∧
      ∃ subKey raw, listing.get? subKey = some raw ∧ transform.apply subKey raw = .error e := by
  cases hdecode : listing.decodeIn arrangement transform true with
  | ok values => exact absurd ((of_decodeIn_ok hdecode).2 rfl) h
  | error e => exact ⟨e, rfl, (of_decodeIn_error hdecode).2⟩

end Listing

/-! ### Marks -/

/-- No value is marked as one that could not be decoded. -/
def PathValues.Unmarked (values : PathValues) : Prop := ∀ subKey, values.get? subKey ≠ some none

/-- A listing whose entries can all be decoded is decoded without marks. -/
theorem Listing.DecodesTo.unmarked {listing : Listing} {transform : Transform}
    {values : PathValues} (h : listing.DecodesTo transform values)
    (hall : listing.Decodable transform) : values.Unmarked := by
  intro subKey hmark
  rw [h subKey] at hmark
  obtain ⟨raw, hget, hnone⟩ := Option.map_eq_some_iff.mp hmark
  obtain ⟨value, happly⟩ := hall subKey raw hget
  rw [happly] at hnone
  cases hnone

/-- What a strict listing is decoded to is unmarked, in whatever order. -/
theorem Listing.unmarked_of_decodeIn {arrangement : Arrangement} {transform : Transform}
    {listing : Listing} {values : PathValues}
    (h : listing.decodeIn arrangement transform true = .ok values) : values.Unmarked :=
  (of_decodeIn_ok h).1.unmarked ((of_decodeIn_ok h).2 rfl)

/-- What is kept under the key of a strict listing is unmarked. -/
def Cached.StrictUnmarked (key : CacheKey) (content : Cached) : Prop :=
  key.lookup = .multiple true → ∀ values, content = .values values → values.Unmarked

/-- Everything that is kept for a strict listing is unmarked. -/
def Cache.StrictUnmarked (cache : Cache) : Prop :=
  ∀ key entry, cache.find? key = some entry → Cached.StrictUnmarked key entry.content

theorem Cache.StrictUnmarked.empty : Cache.StrictUnmarked .empty :=
  fun _ entry hentry => absurd hentry.symm (Option.some_ne_none entry)

/-- Keeping what is unmarked, if strict, leaves the cache so. -/
theorem Cache.StrictUnmarked.insert {cache : Cache} (h : cache.StrictUnmarked) {key : CacheKey}
    {content : Cached} (hcontent : Cached.StrictUnmarked key content) (time : Instant) :
    Cache.StrictUnmarked (cache.insert key ⟨content, time⟩) := by
  intro other entry hentry
  rw [Assoc.find?_insert] at hentry
  split at hentry
  · rename_i heq
    obtain rfl := Option.some.inj hentry
    rw [heq]
    exact hcontent
  · exact h other entry hentry

namespace Provider

variable {σ : Type} {p : Provider σ}

/-! ### One request -/

/-- Whatever a request retrieves for a strict listing is unmarked. -/
theorem strictUnmarked_of_mem_retrievals {request : Request} {exchanges : List Exchange}
    {retrieval : Retrieval} (h : retrieval ∈ request.retrievals p.source.name exchanges) :
    Cached.StrictUnmarked retrieval.key retrieval.content := by
  intro hkey values hcontent
  cases request.made_of_mem_retrievals h with
  | value name transform options value time => cases hkey
  | values path transform strict options time hdecode =>
      obtain rfl := Cached.values.inj hcontent
      rw [Lookup.multiple.inj hkey, ← Listing.decodeIn_byName] at hdecode
      exact Listing.unmarked_of_decodeIn hdecode

/-- A request leaves unmarked what is kept for strict listings. -/
theorem serve_strictUnmarked {s : State σ} (h : s.cache.StrictUnmarked) (request : Request) :
    (p.serve request s).2.cache.StrictUnmarked := by
  by_cases hclear : request = .clear
  · rw [hclear]
    exact .empty
  · rw [p.serve_cache hclear]
    have hretrieved : ∀ retrieval ∈ request.retrievals p.source.name (p.exchanges request s),
        Cached.StrictUnmarked retrieval.key retrieval.content := fun retrieval hmem =>
      strictUnmarked_of_mem_retrievals hmem
    generalize request.retrievals p.source.name (p.exchanges request s) = retrievals at hretrieved
    generalize s.cache = cache at h
    induction retrievals generalizing cache with
    | nil => exact h
    | cons first rest ih =>
        have hfirst := h.insert (hretrieved first List.mem_cons_self) first.time
        exact ih (fun retrieval hmem => hretrieved retrieval (List.mem_cons_of_mem first hmem)) _
          hfirst

/-- What is brought for a strict listing is unmarked, in whatever order it is decoded. -/
theorem unmarked_of_bring {arrangement : Arrangement} {path : String} {options : GetOptions}
    (hstrict : options.strict = true) {world : World σ} {values : PathValues}
    (h : (p.bring (.ofPath arrangement path options) world).1 = .ok values) : values.Unmarked := by
  obtain ⟨listing, -, hdecode⟩ := exists_of_bind_eq_ok h
  simp only [Inquiry.ofPath, hstrict] at hdecode
  exact Listing.unmarked_of_decodeIn hdecode

/-- A listing leaves unmarked what is kept for strict listings, in whatever order it is decoded. -/
theorem getMultipleIn_strictUnmarked {s : State σ} (h : s.cache.StrictUnmarked)
    (arrangement : Arrangement) (path : String) (options : GetOptions) :
    (p.getMultipleIn arrangement path options s).2.cache.StrictUnmarked := by
  rw [getMultipleIn_eq_inquire]
  cases hcached : p.known? (.ofPath arrangement path options) s with
  | some values =>
      rw [inquire_of_known hcached]
      exact h
  | none =>
      rw [(inquire_of_unknown hcached).2.2]
      cases hbrought : (p.bring (.ofPath arrangement path options) s.world).1 with
      | error e => exact h
      | ok values =>
          refine h.insert (fun hkey content hcontent => ?_) _
          obtain rfl := Cached.values.inj hcontent
          exact unmarked_of_bring (Lookup.multiple.inj hkey) hbrought

/-! ### Runs -/

/-- Serves a request; a listing is decoded in the given order. -/
def serveIn (p : Provider σ) (arrangement : Arrangement) (request : Request) (s : State σ) :
    Reply × State σ :=
  match request with
  | .getMultiple path options => (p.getMultipleIn arrangement path options s).map .values id
  | other => p.serve other s

/-- Takes one step; a listing is decoded in the given order. -/
def stepIn (p : Provider σ) (s : State σ) : Arrangement × Step σ → State σ
  | (arrangement, .serve request) => (p.serveIn arrangement request s).2
  | (_, .backend change) => { s with world.backend := change s.world.backend }
  | (_, .clock now) => { s with world.now := now }

/-- The provider as a machine whose steps come with the order in which each decodes a listing. -/
def machineIn (p : Provider σ) : Machine (State σ) (Arrangement × Step σ) Empty := .silent p.stepIn

/-- The state at the end of a run, from an empty cache. Every step comes with the order in which it
decodes a listing. -/
def runIn (p : Provider σ) (world : World σ) (steps : List (Arrangement × Step σ)) : State σ :=
  p.machineIn.run { world } steps

/-- If all listings are decoded in the order of their sub-keys, the run is the usual one. -/
theorem runIn_byName (p : Provider σ) (world : World σ) (steps : List (Step σ)) :
    p.runIn world (steps.map fun step => (.byName, step)) = (p.run world steps).state := by
  refine Machine.run_map (f := Past.state) (g := fun step => (Arrangement.byName, step)) ?_
    { state := { world }, history := [] } steps
  intro past step
  cases step with
  | serve request => cases request <;> rfl
  | backend change => rfl
  | clock now => rfl

/-- A step leaves unmarked what is kept for strict listings. -/
theorem stepIn_strictUnmarked {s : State σ} (h : s.cache.StrictUnmarked)
    (step : Arrangement × Step σ) : (p.stepIn s step).cache.StrictUnmarked := by
  obtain ⟨arrangement, step⟩ := step
  cases step with
  | serve request =>
      cases request with
      | getMultiple path options => exact getMultipleIn_strictUnmarked h arrangement path options
      | get name options => exact serve_strictUnmarked h _
      | getByName parameters options => exact serve_strictUnmarked h _
      | clear => exact serve_strictUnmarked h _
  | backend change => exact h
  | clock now => exact h

/-- **What is kept for strict listings is unmarked**, after every run: a strict listing is only kept
if all of its entries could be decoded, and the mode is part of the key. -/
theorem runIn_strictUnmarked (p : Provider σ) (world : World σ)
    (steps : List (Arrangement × Step σ)) : (p.runIn world steps).cache.StrictUnmarked :=
  p.machineIn.run_induction (fun _ s => s.cache.StrictUnmarked) .empty
    (fun _ _ step h => stepIn_strictUnmarked h step) steps

/-! ### What is delivered -/

/-- **A strict listing is delivered without marks**, from the cache or not. A tolerant listing of
the same path is kept under another key, so its marks never get here. -/
theorem getMultipleIn_unmarked {s : State σ} (h : s.cache.StrictUnmarked)
    {arrangement : Arrangement} {path : String} {options : GetOptions}
    (hstrict : options.strict = true) {values : PathValues}
    (hok : (p.getMultipleIn arrangement path options s).1 = .ok values) : values.Unmarked := by
  rw [getMultipleIn_eq_inquire] at hok
  cases hcached : p.known? (.ofPath arrangement path options) s with
  | some cached =>
      rw [inquire_of_known hcached] at hok
      obtain rfl := Except.ok.inj hok
      obtain ⟨stored, hkept⟩ := exists_kept_of_known hcached
      exact h _ _ hkept (congrArg Lookup.multiple hstrict) cached rfl
  | none =>
      exact unmarked_of_bring hstrict ((inquire_of_unknown hcached).1.symm.trans hok)

/-- **A tolerant listing fails to be fetched, if at all.** What cannot be decoded is marked and does
not end it. -/
theorem getMultipleIn_tolerant_fails (h : p.source.FailsToFetch) {arrangement : Arrangement}
    {path : String} {options : GetOptions} (htolerant : options.strict = false) {s : State σ}
    {e : Error} (hfails : (p.getMultipleIn arrangement path options s).1 = .error e) :
    e.OfFetch := by
  rw [getMultipleIn_eq_inquire] at hfails
  cases hcached : p.known? (.ofPath arrangement path options) s with
  | some cached =>
      rw [inquire_of_known hcached] at hfails
      cases hfails
  | none =>
      rw [(inquire_of_unknown hcached).1, bring] at hfails
      rcases hquiet : ((Inquiry.ofPath arrangement path options).call p.source).quiet s.world with
        ⟨outcome, world⟩
      rw [hquiet] at hfails
      cases outcome with
      | error other =>
          obtain rfl := Except.error.inj hfails
          exact h.many path options.backend _ other (congrArg Prod.fst hquiet)
      | ok listing =>
          have hstrict := (Listing.of_decodeIn_error hfails).1
          exact absurd (hstrict.symm.trans htolerant).symm Bool.false_ne_true

/-- **A listing that is fetched** is decoded, and kept if that succeeds. -/
theorem getMultipleIn_of_fetched {arrangement : Arrangement} {path : String} {options : GetOptions}
    {s : State σ} {listing : Listing} {world : World σ}
    (hcached : p.cachedValues? path options s = none)
    (hquiet : (p.source.fetchMany path options.backend).quiet s.world = (.ok listing, world)) :
    (p.getMultipleIn arrangement path options s).1 =
        listing.decodeIn arrangement options.transform options.strict ∧
      (p.getMultipleIn arrangement path options s).2.cache =
        s.cache.keep (p.pathKey path options) world.now
          ((listing.decodeIn arrangement options.transform options.strict).map .values) := by
  have hbring : p.bring (.ofPath arrangement path options) s.world =
      (listing.decodeIn arrangement options.transform options.strict, world) := by
    have hcall : ((Inquiry.ofPath arrangement path options).call p.source).quiet s.world =
      (.ok listing, world) := hquiet
    rw [bring, hcall]
    rfl
  obtain ⟨hreply, -, hcache⟩ :=
    p.inquire_of_unknown (q := .ofPath arrangement path options) hcached
  rw [hbring] at hreply hcache
  rw [getMultipleIn_eq_inquire]
  exact ⟨hreply, hcache⟩

/-- What a provider does with listings. A look-up is *fetched* if the cache does not serve it and
its source brings a listing; the entries of that may be decoded in any order. -/
structure DecodesListings (p : Provider σ) : Prop where
  /-- In the order of the sub-keys, the look-up is the one that the provider runs. -/
  usual (path : String) (options : GetOptions) (s : State σ) :
    p.getMultipleIn .byName path options s = p.getMultiple path options s
  /-- In this order, a run is one of the provider. -/
  usualRun (start : World σ) (steps : List (Step σ)) :
    p.runIn start (steps.map fun step => (.byName, step)) = (p.run start steps).state
  /-- A tolerant look-up that is fetched lists every sub-key, with a mark if its value cannot be
  decoded. -/
  tolerant (arrangement : Arrangement) (path : String) (options : GetOptions) (s : State σ)
    (listing : Listing) (world : World σ) :
    options.strict = false → p.cachedValues? path options s = none →
      (p.source.fetchMany path options.backend).quiet s.world = (.ok listing, world) →
        ∃ values, (p.getMultipleIn arrangement path options s).1 = .ok values ∧
          listing.DecodesTo options.transform values
  /-- A strict look-up that is fetched lists the same if every value can be decoded. -/
  strict (arrangement : Arrangement) (path : String) (options : GetOptions) (s : State σ)
    (listing : Listing) (world : World σ) :
    options.strict = true → p.cachedValues? path options s = none →
      (p.source.fetchMany path options.backend).quiet s.world = (.ok listing, world) →
        listing.Decodable options.transform →
          ∃ values, (p.getMultipleIn arrangement path options s).1 = .ok values ∧
            listing.DecodesTo options.transform values
  /-- Otherwise it fails as one of the values does, and the cache stays as it was. -/
  strictFails (arrangement : Arrangement) (path : String) (options : GetOptions) (s : State σ)
    (listing : Listing) (world : World σ) :
    options.strict = true → p.cachedValues? path options s = none →
      (p.source.fetchMany path options.backend).quiet s.world = (.ok listing, world) →
        ¬ listing.Decodable options.transform →
          ∃ e, (p.getMultipleIn arrangement path options s).1 = .error e ∧ e.kind = .transform ∧
            (p.getMultipleIn arrangement path options s).2.cache = s.cache
  /-- After every run, a strict look-up is delivered without marks. -/
  unmarked (start : World σ) (steps : List (Arrangement × Step σ)) (arrangement : Arrangement)
    (path : String) (options : GetOptions) (values : PathValues) :
    options.strict = true →
      (p.getMultipleIn arrangement path options (p.runIn start steps)).1 = .ok values →
        values.Unmarked
  /-- After every run, a tolerant look-up does not fail to be decoded, if the source fails only to
  fetch. -/
  tolerates (start : World σ) (steps : List (Arrangement × Step σ)) (arrangement : Arrangement)
    (path : String) (options : GetOptions) (e : Error) :
    p.source.FailsToFetch → options.strict = false →
      (p.getMultipleIn arrangement path options (p.runIn start steps)).1 = .error e →
        e.kind ≠ .transform
  /-- The stores of this library fail only to fetch. -/
  builtIn : p.source.BuiltIn → p.source.FailsToFetch

/-- **Listings are decoded entry by entry, and strict and tolerant ones never mix.** -/
theorem decodesListings (p : Provider σ) : p.DecodesListings where
  usual := p.getMultipleIn_byName
  usualRun := p.runIn_byName
  tolerant arrangement path options s listing world htolerant hcached hquiet := by
    obtain ⟨hreply, -⟩ := getMultipleIn_of_fetched hcached hquiet
    obtain ⟨values, hdecode, hvalues⟩ :=
      listing.decodeIn_tolerant arrangement options.transform
    rw [← htolerant] at hdecode
    exact ⟨values, hreply.trans hdecode, hvalues⟩
  strict arrangement path options s listing world hstrict hcached hquiet hall := by
    obtain ⟨hreply, -⟩ := getMultipleIn_of_fetched hcached hquiet
    obtain ⟨values, hdecode, hvalues⟩ := Listing.decodeIn_strict_of_decodable arrangement hall
    rw [← hstrict] at hdecode
    exact ⟨values, hreply.trans hdecode, hvalues⟩
  strictFails arrangement path options s listing world hstrict hcached hquiet hnot := by
    obtain ⟨hreply, hcache⟩ := getMultipleIn_of_fetched hcached hquiet
    obtain ⟨e, hdecode, subKey, raw, -, hfails⟩ :=
      Listing.decodeIn_strict_of_not_decodable arrangement hnot
    rw [← hstrict] at hdecode
    rw [hdecode] at hreply hcache
    exact ⟨e, hreply, Transform.kind_of_apply hfails, hcache⟩
  unmarked start steps arrangement path options values hstrict hok :=
    getMultipleIn_unmarked (p.runIn_strictUnmarked start steps) hstrict hok
  tolerates start steps arrangement path options e hsource htolerant hfails :=
    (getMultipleIn_tolerant_fails hsource htolerant hfails).kind_ne
  builtIn := Source.BuiltIn.failsToFetch

end Provider

end CachedParameters
