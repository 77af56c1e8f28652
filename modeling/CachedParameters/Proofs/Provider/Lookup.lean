import CachedParameters.Proofs.Dict
import CachedParameters.Proofs.Provider.Steps
import CachedParameters.Provider

/-!
# What a look-up does

A look-up of a name or of a path either finds a value in the cache, and then nothing else happens,
or makes one call, decodes the answer, and stores what it decoded. `Provider.get` and
`Provider.getMultiple` differ in the key, in the call and in how the answer is decoded, and in
nothing else. An `Inquiry` holds what they differ in, and `Provider.inquire` is what they have in
common. So the lemmas on the two cases are stated of inquiries: the reply, the world and the cache
afterwards, and the calls that were seen.

The entries of a listing are decoded in no particular order, so the inquiry of a path has an
`Arrangement` of them.

## Main results

- `Provider.decodeEntries_eq`: entries are decoded as their listing is, in whatever order.
- `Provider.get_eq_inquire`, `Provider.getMultipleIn_eq_inquire`: both kinds of look-ups are
  inquiries.
- `Provider.inquire_of_known`: what the cache serves is the reply.
- `Provider.inquire_of_unknown`: what an inquiry does without the cache.
- `Provider.inquire_watch`: the calls that an inquiry makes.
-/

namespace CachedParameters

/-! ### Decoding -/

/-- A transform that is resolved is not resolved further. -/
theorem Transform.resolve_resolve (transform : Transform) (name : String) :
    (transform.resolve name).resolve name = transform.resolve name := by
  cases transform with
  | plain | json | binary => rfl
  | auto =>
      rw [resolve]
      split
      · rfl
      · split <;> rfl

/-- Values are decoded the same by a transform and by what it is resolved to. -/
theorem Transform.apply_resolve (transform : Transform) (name : String) (raw : RawValue) :
    (transform.resolve name).apply name raw = transform.apply name raw := by
  rw [apply.eq_def, apply.eq_def, resolve_resolve]

/-- The failure of an outcome, if it is one. -/
def Except.failure? {ε α : Type} : Except ε α → Option ε
  | .ok _ => none
  | .error e => some e

/-- The values of a listing, each decoded by itself. If `strict`, the first one that cannot be
decoded fails the listing; otherwise it is listed without a value. -/
def Listing.decode (transform : Transform) (strict : Bool) (listing : Listing) :
    Except Error PathValues :=
  match listing.entries.findSome? fun entry =>
      if strict then Except.failure? (transform.apply entry.1 entry.2) else none with
  | some e => .error e
  | none => .ok (listing.mapEntries fun subKey raw => (transform.apply subKey raw).toOption)

/-- An order in which the entries of listings are gone through: `entries` gives those of a listing,
each once. -/
structure Arrangement where
  entries : Listing → List (String × RawValue)
  perm (listing : Listing) : (entries listing).Perm listing.entries

/-- The order of the sub-keys. `getMultiple` decodes in this one, and what is proved of any
arrangement holds of it. -/
def Arrangement.byName : Arrangement := ⟨Dict.entries, fun _ => List.Perm.rfl⟩

/-- The values of a listing, decoded in some order. The order decides which failure fails a strict
listing, and nothing else. -/
def Listing.decodeIn (arrangement : Arrangement) (transform : Transform) (strict : Bool)
    (listing : Listing) : Except Error PathValues :=
  match (arrangement.entries listing).findSome? fun entry =>
      if strict then Except.failure? (transform.apply entry.1 entry.2) else none with
  | some e => .error e
  | none => .ok (listing.mapEntries fun subKey raw => (transform.apply subKey raw).toOption)

/-- A listing is decoded in the order of its sub-keys. -/
theorem Listing.decodeIn_byName (transform : Transform) (strict : Bool) (listing : Listing) :
    listing.decodeIn .byName transform strict = listing.decode transform strict := rfl

/-- Every decoded value stands under the sub-key of a raw one, which it was decoded from. -/
theorem Listing.get?_of_decode {transform : Transform} {strict : Bool} {listing : Listing}
    {values : PathValues} (h : listing.decode transform strict = .ok values) {subKey : String}
    {decoded : Option ParameterValue} (hget : values.get? subKey = some decoded) :
    ∃ raw, listing.get? subKey = some raw ∧
      decoded = (transform.apply subKey raw).toOption := by
  rw [Listing.decode] at h
  split at h
  · cases h
  · obtain rfl := Except.ok.inj h
    rw [Dict.get?_mapEntries] at hget
    obtain ⟨raw, hraw, hdecoded⟩ := Option.map_eq_some_iff.mp hget
    exact ⟨raw, hraw, hdecoded.symm⟩

/-- The names whose values cannot be decoded, as far as they are decoded: if `strict`, the first one
is the last. -/
def undecoded (strict : Bool) (decode : String → RawValue → Except Error ParameterValue) :
    List (String × RawValue) → List String
  | [] => []
  | (name, raw) :: rest =>
    match decode name raw with
    | .ok _ => undecoded strict decode rest
    | .error _ => name :: if strict then [] else undecoded strict decode rest

/-! ### Inquiries -/

/-- What the cache keeps under a key after an attempt to retrieve it: something new only if the
attempt was successful. -/
def Cache.keep (cache : Cache) (key : CacheKey) (time : Instant) : Except Error Cached → Cache
  | .ok content => cache.insert key ⟨content, time⟩
  | .error _ => cache

/-- A look-up of one kind, for any provider. It belongs under a `key` of the source's name, `keep`
and `kept?` say how the cache holds what it yields, and `call` is what it asks of the source, which
a watched source sees as an `answer`. What the source `brought` is decoded value by value; `strict`
says whether the first value that cannot be decoded is the last one tried. -/
structure Inquiry (ρ α : Type) where
  operation : Operation
  subject : String
  options : GetOptions
  key : String → CacheKey
  keep : α → Cached
  kept? : Cached → Option α
  kept?_eq_some_iff {content : Cached} {found : α} :
    kept? content = some found ↔ content = keep found
  call {σ : Type} : Source σ → Fetch σ ρ
  answer : Except Error ρ → Answer
  call_watched {σ : Type} (source : Source σ) :
    call source.watched = (call source).watched answer
  brought : ρ → List (String × RawValue)
  strict : Bool
  decode : ρ → Except Error α

namespace Inquiry

/-- The look-up of a name as an inquiry: one call of `fetchOne`, decoded by the resolved
transform. -/
def ofName (name : String) (options : GetOptions) : Inquiry RawValue ParameterValue where
  operation := .get
  subject := name
  options := options
  key source := .single source name (options.transform.resolve name) options.backend
  keep := .value
  kept? := Cached.value?
  kept?_eq_some_iff {content found} := by
    cases content <;> simp [Cached.value?]
  call source := source.fetchOne name options.backend
  answer := .one name options.backend
  call_watched _ := rfl
  brought raw := [(name, raw)]
  strict := true
  decode := options.transform.apply name

/-- The look-up of a path, the entries of a fetched listing decoded in some order. -/
def ofPath (arrangement : Arrangement) (path : String) (options : GetOptions) :
    Inquiry Listing PathValues where
  operation := .getMultiple
  subject := path
  options := options
  key source := .multiple source path options.transform options.strict options.backend
  keep := .values
  kept? := Cached.values?
  kept?_eq_some_iff {content found} := by
    cases content <;> simp [Cached.values?]
  call source := source.fetchMany path options.backend
  answer := .many path options.backend
  call_watched _ := rfl
  brought := arrangement.entries
  strict := options.strict
  decode := Listing.decodeIn arrangement options.transform options.strict

variable {ρ α : Type}

/-- The names whose values cannot be decoded, as far as they are decoded. -/
def undecoded (q : Inquiry ρ α) (raw : ρ) : List String :=
  CachedParameters.undecoded q.strict q.options.transform.apply (q.brought raw)

end Inquiry

namespace Provider

variable {σ ρ α : Type}

/-- Records values that cannot be decoded, by their names. -/
def recordUndecoded (p : Provider σ) (operation : Operation) (names : List String)
    (s : State σ) : State σ :=
  names.foldl (fun s name => p.record operation .transformFailed name s) s

/-- Recording what cannot be decoded touches neither the world nor the cache. -/
theorem recordUndecoded_state (p : Provider σ) (operation : Operation) (names : List String)
    (s : State σ) : (p.recordUndecoded operation names s).world = s.world ∧
      (p.recordUndecoded operation names s).cache = s.cache := by
  induction names generalizing s with
  | nil => exact ⟨rfl, rfl⟩
  | cons name rest ih => exact ih _

/-- Recording what cannot be decoded does not mind being watched. -/
theorem recordUndecoded_watch (p : Provider σ) (operation : Operation) (names : List String)
    (seen : List Exchange) (s : State σ) :
    p.watched.recordUndecoded operation names (s.watch seen) =
      (p.recordUndecoded operation names s).watch seen := by
  induction names generalizing s with
  | nil => rfl
  | cons name rest ih => exact ih (p.record operation .transformFailed name s)

/-- Makes an inquiry: asks the cache, and if that does not serve, lets the source fetch, decodes
what it brings and stores that. -/
def inquire (p : Provider σ) (q : Inquiry ρ α) (s : State σ) : Except Error α × State σ :=
  match p.consult q.operation (q.key p.source.name) q.subject q.options.forceFetch
      q.options.maxAge q.kept? s with
  | (some found, s) => (.ok found, s)
  | (none, s) =>
    match p.fetch q.operation q.subject (q.call p.source) s with
    | (.error e, s) => (.error e, s)
    | (.ok raw, s) =>
      let s := p.recordUndecoded q.operation (q.undecoded raw) s
      match q.decode raw with
      | .error e => (.error e, s)
      | .ok found => (.ok found, s.store (q.key p.source.name) (q.keep found))

/-- What the cache serves an inquiry. If it is anything, the source is not called. -/
def known? (p : Provider σ) (q : Inquiry ρ α) (s : State σ) : Option α :=
  p.cached? (q.key p.source.name) q.options.forceFetch q.options.maxAge q.kept? s

/-- Fetches and decodes what an inquiry asks for. -/
def bring (p : Provider σ) (q : Inquiry ρ α) : Fetch σ α := fun world =>
  let (outcome, after) := (q.call p.source).quiet world
  (outcome.bind q.decode, after)

/-- The calls that an inquiry makes: none if the cache serves it, and else one. -/
def calls (p : Provider σ) (q : Inquiry ρ α) (s : State σ) : List Exchange :=
  match p.known? q s with
  | some _ => []
  | none =>
    [⟨q.answer ((q.call p.source).quiet s.world).1, ((q.call p.source).quiet s.world).2.now⟩]

variable {p : Provider σ} {q : Inquiry ρ α} {s : State σ} {found : α}

/-- What the cache serves is the reply. Nothing changes but the log, and in particular the source is
not called. -/
theorem inquire_of_known (h : p.known? q s = some found) :
    p.inquire q s =
      (.ok found, p.record q.operation (consulted q.options.forceFetch true) q.subject s) := by
  rw [known?] at h
  simp only [inquire, consult_eq, h]
  rfl

/-- **An inquiry that the cache does not serve** replies what it brings, and stores that. -/
theorem inquire_of_unknown (h : p.known? q s = none) :
    (p.inquire q s).1 = (p.bring q s.world).1 ∧
      (p.inquire q s).2.world = (p.bring q s.world).2 ∧
      (p.inquire q s).2.cache =
        s.cache.keep (q.key p.source.name) (p.bring q s.world).2.now
          ((p.bring q s.world).1.map q.keep) := by
  rw [known?] at h
  obtain ⟨after, hfetch, hworld, hcache⟩ := p.fetch_eq q.operation q.subject (q.call p.source)
    (p.record q.operation (consulted q.options.forceFetch false) q.subject s)
  rw [record_world] at hfetch hworld
  rw [record_cache] at hcache
  simp only [inquire, consult_eq, h, Option.isSome_none, hfetch, bring]
  cases ((q.call p.source).quiet s.world).1 with
  | error e => exact ⟨rfl, hworld, hcache⟩
  | ok raw =>
      obtain ⟨hsame, hkept⟩ := p.recordUndecoded_state q.operation (q.undecoded raw) after
      simp only [Except.bind]
      cases q.decode raw with
      | error e => exact ⟨rfl, hsame.trans hworld, hkept.trans hcache⟩
      | ok found =>
          refine ⟨rfl, hsame.trans hworld, ?_⟩
          rw [State.store_cache, hkept, hcache, hsame, hworld]
          rfl

/-- What the cache serves is kept under the key of the inquiry, in the form that the inquiry keeps
its results in. -/
theorem exists_kept_of_known (h : p.known? q s = some found) :
    ∃ stored, s.cache.find? (q.key p.source.name) = some ⟨q.keep found, stored⟩ := by
  rw [known?, cached?] at h
  split at h
  · cases h
  · obtain ⟨⟨content, stored⟩, hfresh, hkept⟩ := Option.bind_eq_some_iff.mp h
    obtain rfl := q.kept?_eq_some_iff.mp hkept
    exact ⟨stored, (Option.filter_eq_some_iff.mp hfresh).1⟩

/-- What is kept and young enough is served, unless the cache is passed over. -/
theorem known?_of_kept {stored : Instant} (hforce : q.options.forceFetch = false)
    (hkept : s.cache.find? (q.key p.source.name) = some ⟨q.keep found, stored⟩)
    (hage : s.world.now.since stored < p.ageLimit q.options.maxAge) :
    p.known? q s = some found := by
  have hfresh : s.cache.fresh? (q.key p.source.name) s.world.now (p.ageLimit q.options.maxAge) =
      some ⟨q.keep found, stored⟩ :=
    Option.filter_eq_some_iff.mpr ⟨hkept, decide_eq_true hage⟩
  rw [known?, cached?, hforce, hfresh]
  exact q.kept?_eq_some_iff.mpr rfl

theorem calls_of_known (h : p.known? q s = some found) : p.calls q s = [] := by
  rw [calls, h]

/-- An inquiry that it does not serve makes one call. -/
theorem calls_of_unknown (h : p.known? q s = none) :
    p.calls q s =
      [⟨q.answer ((q.call p.source).quiet s.world).1,
        ((q.call p.source).quiet s.world).2.now⟩] := by
  rw [calls, h]

/-- Whatever call an inquiry makes, it is the one of an inquiry that the cache does not serve. -/
theorem eq_of_mem_calls {exchange : Exchange} (h : exchange ∈ p.calls q s) :
    p.known? q s = none ∧
      exchange = ⟨q.answer ((q.call p.source).quiet s.world).1,
        ((q.call p.source).quiet s.world).2.now⟩ := by
  cases hknown : p.known? q s with
  | some found =>
      rw [calls_of_known hknown] at h
      exact absurd h List.not_mem_nil
  | none =>
      rw [calls_of_unknown hknown] at h
      exact ⟨rfl, List.mem_singleton.mp h⟩

/-- **Being watched changes nothing**, and what is seen of an inquiry are its calls: none if the
cache serves it, and one otherwise. -/
theorem inquire_watch (p : Provider σ) (q : Inquiry ρ α) (seen : List Exchange) (s : State σ) :
    p.watched.inquire q (s.watch seen) =
      ((p.inquire q s).1, (p.inquire q s).2.watch (seen ++ p.calls q s)) := by
  have hwatched : p.watched.known? q (s.watch seen) = p.known? q s := p.cached?_watch ..
  cases h : p.known? q s with
  | some found =>
      rw [inquire_of_known h, inquire_of_known (hwatched.trans h), calls_of_known h,
        List.append_nil, record_watch]
  | none =>
      rw [calls_of_unknown h]
      rw [h] at hwatched
      rw [known?] at h hwatched
      have hfetch := p.fetch_watch q.operation q.subject q.answer (q.call p.source) seen
        (p.record q.operation (consulted q.options.forceFetch false) q.subject s)
      rw [← q.call_watched, record_world] at hfetch
      simp only [inquire, consult_eq, h, hwatched, Option.isSome_none, record_watch]
      have hsource : p.watched.source = p.source.watched := rfl
      rw [hsource, hfetch]
      rcases p.fetch q.operation q.subject (q.call p.source)
        (p.record q.operation (consulted q.options.forceFetch false) q.subject s) with
        ⟨outcome, after⟩
      cases outcome with
      | error e => rfl
      | ok raw =>
          simp only [recordUndecoded_watch]
          cases q.decode raw <;> rfl

/-! ### One name -/

/-- The key under which a look-up of a name is kept. -/
def singleKey (p : Provider σ) (name : String) (options : GetOptions) : CacheKey :=
  .single p.source.name name (options.transform.resolve name) options.backend

/-- What the cache serves a look-up of a name. -/
def cachedValue? (p : Provider σ) (name : String) (options : GetOptions) (s : State σ) :
    Option ParameterValue :=
  p.cached? (p.singleKey name options) options.forceFetch options.maxAge Cached.value? s

theorem get_eq_inquire (p : Provider σ) (name : String) (options : GetOptions) (s : State σ) :
    p.get name options s = p.inquire (.ofName name options) s := by
  simp only [get, inquire, Inquiry.ofName, Inquiry.undecoded, undecoded, Transform.apply_resolve]
  rcases p.consult .get _ name options.forceFetch options.maxAge Cached.value? s with
    ⟨served, asked⟩
  cases served with
  | some value => rfl
  | none =>
      dsimp only
      rcases p.fetch .get name (p.source.fetchOne name options.backend) asked with
        ⟨outcome, after⟩
      cases outcome with
      | error e => rfl
      | ok raw =>
          dsimp only
          cases options.transform.apply name raw <;> rfl

/-- What the cache serves a look-up of a name is the reply. -/
theorem get_of_cached {name : String} {options : GetOptions} {value : ParameterValue}
    (h : p.cachedValue? name options s = some value) :
    p.get name options s =
      (.ok value, p.record .get (consulted options.forceFetch true) name s) :=
  (p.get_eq_inquire name options s).trans (inquire_of_known (q := .ofName name options) h)

/-- A look-up of a name that the cache does not serve replies what it brings, and stores that. -/
theorem get_of_missed {name : String} {options : GetOptions}
    (h : p.cachedValue? name options s = none) :
    (p.get name options s).1 = (p.bring (.ofName name options) s.world).1 ∧
      (p.get name options s).2.world = (p.bring (.ofName name options) s.world).2 ∧
      (p.get name options s).2.cache =
        s.cache.keep (p.singleKey name options) (p.bring (.ofName name options) s.world).2.now
          ((p.bring (.ofName name options) s.world).1.map .value) := by
  rw [get_eq_inquire]
  exact inquire_of_unknown (q := .ofName name options) h

/-! ### A path -/

/-- The key under which a look-up of a path is kept. -/
def pathKey (p : Provider σ) (path : String) (options : GetOptions) : CacheKey :=
  .multiple p.source.name path options.transform options.strict options.backend

/-- What the cache serves a look-up of a path. -/
def cachedValues? (p : Provider σ) (path : String) (options : GetOptions) (s : State σ) :
    Option PathValues :=
  p.cached? (p.pathKey path options) options.forceFetch options.maxAge Cached.values? s

/-- Entries are decoded one after another, up to the first failure if `strict`, and those that
cannot be decoded are recorded. -/
theorem decodeEntries_eq (p : Provider σ) (transform : Transform) (strict : Bool)
    (values : PathValues) (entries : List (String × RawValue)) (s : State σ) :
    p.decodeEntries transform strict values entries s =
      (match entries.findSome? fun entry =>
          if strict then Except.failure? (transform.apply entry.1 entry.2) else none with
        | some e => .error e
        | none => .ok (values.insertAll
            (entries.map fun entry => (entry.1, (transform.apply entry.1 entry.2).toOption))),
        p.recordUndecoded .getMultiple (undecoded strict transform.apply entries) s) := by
  induction entries generalizing values s with
  | nil => rfl
  | cons entry rest ih =>
      obtain ⟨subKey, raw⟩ := entry
      rw [decodeEntries, undecoded, List.findSome?_cons, List.map_cons, Dict.insertAll_cons]
      cases transform.apply subKey raw with
      | ok value =>
          simp only [Except.failure?, ite_self]
          exact ih _ _
      | error e =>
          cases strict with
          | true => rfl
          | false => exact ih _ _

/-- The entries of a listing are decoded as the listing is, in whatever order. -/
theorem decodeEntries_arranged (p : Provider σ) (transform : Transform) (strict : Bool)
    (arrangement : Arrangement) (listing : Listing) (s : State σ) :
    p.decodeEntries transform strict .empty (arrangement.entries listing) s =
      (listing.decodeIn arrangement transform strict,
        p.recordUndecoded .getMultiple
          (undecoded strict transform.apply (arrangement.entries listing)) s) := by
  have hnames : ((arrangement.entries listing).map (·.1)).Nodup :=
    ((arrangement.perm listing).map _).nodup_iff.mpr listing.names_nodup
  have hvalues : (Dict.empty : PathValues).insertAll
      ((arrangement.entries listing).map fun entry =>
        (entry.1, (transform.apply entry.1 entry.2).toOption)) =
      listing.mapEntries fun subKey raw => (transform.apply subKey raw).toOption := by
    rw [Dict.insertAll_eq_of_perm ((arrangement.perm listing).map _) (by rwa [List.map_map])]
    exact Dict.ofList_entries
      (listing.mapEntries fun subKey raw => (transform.apply subKey raw).toOption)
  rw [decodeEntries_eq, Listing.decodeIn, hvalues]

/-- Retrieves the values under a path, the entries of a fetched listing decoded in some order. -/
def getMultipleIn (p : Provider σ) (arrangement : Arrangement) (path : String)
    (options : GetOptions) (s : State σ) : Except Error PathValues × State σ :=
  match p.consult .getMultiple (p.pathKey path options) path options.forceFetch options.maxAge
      Cached.values? s with
  | (some values, s) => (.ok values, s)
  | (none, s) =>
    match p.fetch .getMultiple path (p.source.fetchMany path options.backend) s with
    | (.error e, s) => (.error e, s)
    | (.ok listing, s) =>
      match p.decodeEntries options.transform options.strict .empty
          (arrangement.entries listing) s with
      | (.error e, s) => (.error e, s)
      | (.ok values, s) => (.ok values, s.store (p.pathKey path options) (.values values))

/-- The entries are decoded in the order of their sub-keys. -/
theorem getMultipleIn_byName (p : Provider σ) (path : String) (options : GetOptions)
    (s : State σ) : p.getMultipleIn .byName path options s = p.getMultiple path options s := rfl

/-- A look-up of a path is an inquiry, whatever the order. -/
theorem getMultipleIn_eq_inquire (p : Provider σ) (arrangement : Arrangement) (path : String)
    (options : GetOptions) (s : State σ) :
    p.getMultipleIn arrangement path options s =
      p.inquire (.ofPath arrangement path options) s := by
  simp only [getMultipleIn, pathKey, inquire, Inquiry.ofPath, Inquiry.undecoded,
    decodeEntries_arranged]
  rcases p.consult .getMultiple _ path options.forceFetch options.maxAge Cached.values? s with
    ⟨served, asked⟩
  cases served with
  | some values => rfl
  | none =>
      dsimp only
      rcases p.fetch .getMultiple path (p.source.fetchMany path options.backend) asked with
        ⟨outcome, after⟩
      cases outcome with
      | error e => rfl
      | ok listing =>
          dsimp only
          cases listing.decodeIn arrangement options.transform options.strict <;> rfl

/-- The look-up that a provider runs goes through a listing in the order of the sub-keys. -/
theorem getMultiple_eq_inquire (p : Provider σ) (path : String) (options : GetOptions)
    (s : State σ) :
    p.getMultiple path options s = p.inquire (.ofPath .byName path options) s :=
  p.getMultipleIn_eq_inquire .byName path options s

end Provider

end CachedParameters
