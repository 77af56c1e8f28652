import CachedParameters.Proofs.Memory.Truthful
import CachedParameters.Proofs.Provider.Origins
import CachedParameters.Proofs.Value.Typed

/-!
# Typed values survive the whole pipeline

A value is written as a document, the text of the document is stored as a parameter, a provider
fetches it with the json transform, and what it replies is read as a value of the type again. This
gives the value back, whether it was fetched for the look-up, served by the cache, or part of a
batch.

A provider that has cached something older under the key replies that as long as it is fresh, so the
text has to be what the cache holds as well. It does from the first time on that the text was
retrieved, or from the start if nothing was cached under the key, and whatever requests are served
and whatever happens to the clock and to the rest of the store in between. The invariant is
`Deposit.Held`; every step keeps it, since what a request retrieves is genuine.

## Main definitions

- `Deposit`: a text under a name behind a provider, and how it is asked for.
- `Deposit.Since`: the provider has nothing older than the text in its cache.
- `Deposit.Delivers`: all that the provider delivers for the name is read as a value of a type.

## Main results

- `Deposit.Since.held`: the cache keeps nothing but the document of the text.
- `Deposit.delivers`: the text of a document that stands for a value delivers the value.
- `typed_values_survive`: limits, lists of counts and dictionaries of counts survive.
-/

namespace CachedParameters.Memory

open Provider (requested)

/-- A text under a name of a parameter store behind a provider, and the backend options with which
it is asked for. The store and the provider are given by their defaults. -/
structure Deposit where
  defaultDecrypt : Bool
  maxAge : Duration
  name : String
  backend : BackendOptions
  text : String

namespace Deposit

variable (c : Deposit)

/-- The store. -/
def store : ParameterStore Parameters := Parameters.store c.defaultDecrypt

/-- The provider over the store. -/
def provider : Provider Parameters := Parameters.provider c.defaultDecrypt c.maxAge

/-- The key under which the document of the text is cached. -/
def key : CacheKey := .single c.provider.source.name c.name .json c.backend

/-- The text is what the store shows under the name. -/
def Shown (s : Parameters) : Prop :=
  c.store.Reads s.parameters c.name c.backend (.text c.text)

/-- A look-up of the name asks for the document of the text: the transform is json or comes to it
for the name, and the backend is told the same. -/
structure Asked (options : GetOptions) : Prop where
  json : options.transform.resolve c.name = .json
  backend : options.backend = c.backend

/-- The store shows the text, and the provider has nothing older in its cache: either nothing was
cached when the text was stored, or the text has been retrieved by some request. Requests of any
kind, the clock, and changes of the store that leave the text do not make a difference. -/
inductive Since : Provider.State Parameters → Prop where
  /-- The text was stored before anything was cached. -/
  | stored {s : Provider.State Parameters} :
      c.Shown s.world.backend → s.cache.find? c.key = none → Since s
  /-- A request retrieved the text, alone or in a batch. -/
  | retrieved {s : Provider.State Parameters} (request : Request) :
      c.Shown s.world.backend → c.provider.retrieves c.key s (.serve request) = true →
        Since (c.provider.serve request s).2
  /-- A request was served since. -/
  | serve {s : Provider.State Parameters} (request : Request) :
      Since s → Since (c.provider.serve request s).2
  /-- The clock shows another time since. -/
  | clock {s : Provider.State Parameters} (now : Instant) :
      Since s → Since { s with world.now := now }
  /-- The store has changed since, but not in what it shows under the name. -/
  | backend {s : Provider.State Parameters} (after : Parameters) :
      Since s → c.Shown after → Since { s with world.backend := after }

/-- A look-up of the name gets the text, by the cache or from the store. -/
def Gets (s : Provider.State Parameters) (options : GetOptions) : Prop :=
  c.Asked options ∧
    (c.Since s ∨ c.Shown s.world.backend ∧ c.provider.cachedValue? c.name options s = none)

/-- All that the provider delivers for the name is read as a value of a type. -/
structure Delivers {α : Type} (reading : Reading α) (value : α) : Prop where
  /-- The store shows the text once it is put there; a secure one only if the look-up decrypts. -/
  put (s : Parameters) (secure : Bool) :
    (secure = true → c.store.decrypts c.backend = true) →
      c.Shown (s.put c.name c.text secure)
  /-- What a look-up replies is read as the value, and it replies something unless a call is made to
  fail. -/
  single (s : Provider.State Parameters) (options : GetOptions) : c.Gets s options →
    (∀ found, (c.provider.get c.name options s).1 = .ok found → found.read reading = .ok value) ∧
      (s.world.backend.recorder.Calm → ∃ found, (c.provider.get c.name options s).1 = .ok found)
  /-- In a batch that comes to a result, what stands under the name is read as the value, and it
  stands there unless a call is made to fail. The batch comes to a result then if it is graceful or
  if each of its look-ups would reply something. -/
  batch (s : Provider.State Parameters) (parameters : List (String × Overrides))
      (options : BatchOptions) (overrides : Overrides) :
    (requested parameters).get? c.name = some overrides → c.Gets s (options.forName overrides) →
      (∀ result, (c.provider.getByName parameters options s).1 = .ok result →
        (∀ found, result.values.get? c.name = some found → found.read reading = .ok value) ∧
          (s.world.backend.recorder.Calm → ∃ found, result.values.get? c.name = some found)) ∧
      (s.world.backend.recorder.Calm → errorsKey ∉ (requested parameters).names →
        (options.strict = false ∨ ∀ entry ∈ (requested parameters).entries,
          ∃ found, (c.provider.get entry.1 (options.forName entry.2) s).1 = .ok found) →
        ∃ result, (c.provider.getByName parameters options s).1 = .ok result)

variable {c}

/-! ### The source -/

variable (c) in
theorem truthful :
    c.provider.source.Truthful (·.parameters) c.store.Reads c.store.Lists :=
  Parameters.provider_truthful c.defaultDecrypt c.maxAge

variable (c) in
/-- The source is steady while the store keeps the same parameters and no call is made to fail. -/
theorem steady (s : Parameters) :
    c.provider.source.Steady (fun later => later.recorder.Calm ∧ later.parameters = s.parameters)
      (c.store.reading s.parameters) :=
  c.store.steady s.parameters rfl

/-! ### The text -/

/-- A new provider over a store that keeps nothing but the text. -/
def start (c : Deposit) : Provider.State Parameters where
  world := { backend := Parameters.put {} c.name c.text false, now := .zero }

/-- What is put is shown. -/
theorem shown_put (s : Parameters) {secure : Bool}
    (h : secure = true → c.store.decrypts c.backend = true) :
    c.Shown (s.put c.name c.text secure) := by
  refine ParameterStore.reads_iff.mpr ⟨⟨c.text, secure⟩, ?_, ?_⟩
  · exact (Dict.get?_insert ..).trans (if_pos rfl)
  · cases secure with
    | false => rfl
    | true => rw [StoredParameter.reading, h rfl]; rfl

theorem since_start : c.Since c.start :=
  .stored (shown_put {} fun hsecure => Bool.noConfusion hsecure) rfl

theorem Asked.singleKey {options : GetOptions} (h : c.Asked options) :
    c.provider.singleKey c.name options = c.key := by
  rw [Provider.singleKey, h.json, h.backend, key]

variable {content : ParameterValue}
  (hdecoded : Transform.json.apply c.name (.text c.text) = .ok content)

include hdecoded

/-- What is genuine under the key is the document of the text. -/
theorem eq_of_genuine {s : Parameters} (hshown : c.Shown s) {cached : Cached}
    (h : Genuine c.provider.source.name (c.store.Reads s.parameters)
      (c.store.Lists s.parameters) c.key cached) : cached = .value content := by
  generalize hkey : c.key = key at h
  cases h with
  | value transform hread happly =>
      obtain ⟨-, rfl, hresolve, rfl⟩ := CacheKey.single_inj.mp hkey
      obtain rfl := Except.ok.inj (hread.symm.trans hshown)
      rw [← Transform.apply_resolve, ← hresolve, hdecoded] at happly
      exact congrArg Cached.value (Except.ok.inj happly).symm
  | values => cases congrArg CacheKey.lookup hkey

/-! ### The cache -/

omit hdecoded in
/-- The store shows the text, and the cache keeps nothing but its document for it. -/
structure Held (c : Deposit) (content : ParameterValue) (s : Provider.State Parameters) : Prop where
  shown : c.Shown s.world.backend
  kept : ∀ entry, s.cache.find? c.key = some entry → entry.content = .value content

/-- A request leaves what the store shows, and the document in the cache if it was there or is
retrieved now. -/
theorem held_serve {s : Provider.State Parameters} (request : Request)
    (hshown : c.Shown s.world.backend)
    (h : c.provider.retrieves c.key s (.serve request) = true ∨ c.Held content s) :
    c.Held content (c.provider.serve request s).2 where
  shown := by
    have hsame : (c.provider.serve request s).2.world.backend.parameters =
        s.world.backend.parameters := (c.truthful.serve request s).1
    rw [Shown, hsame]
    exact hshown
  kept entry hentry := by
    rcases Provider.retrieved_or_kept_of_serve hentry with ⟨-, retrieval, hmem, hkey, rfl⟩ |
      ⟨hnot, hkept⟩
    · have hgenuine := (c.truthful.genuine_of_mem_retrievals hmem).1
      rw [hkey] at hgenuine
      exact eq_of_genuine hdecoded hshown hgenuine
    · rcases h with hretrieves | hheld
      · rw [hnot] at hretrieves
        exact Bool.noConfusion hretrieves
      · exact hheld.kept entry hkept

/-- **Since the text was stored, the cache keeps nothing but its document.** The induction is on how
the state came about since then; only requests put something into the cache, and what they decode is
the text. -/
theorem Since.held {s : Provider.State Parameters} (h : c.Since s) : c.Held content s := by
  induction h with
  | stored hshown hnone =>
      refine ⟨hshown, fun entry hentry => ?_⟩
      rw [hnone] at hentry
      cases hentry
  | retrieved request hshown hretrieves =>
      exact held_serve hdecoded request hshown (.inl hretrieves)
  | serve request _ ih => exact held_serve hdecoded request ih.shown (.inr ih)
  | clock now _ ih => exact ⟨ih.shown, ih.kept⟩
  | backend after _ hshown ih => exact ⟨hshown, ih.kept⟩

/-! ### Look-ups -/

variable {options : GetOptions} {s : Provider.State Parameters}

theorem Gets.shown (h : c.Gets s options) : c.Shown s.world.backend := by
  rcases h.2 with hsince | ⟨hshown, -⟩
  · exact (hsince.held hdecoded).shown
  · exact hshown

/-- What the cache serves to a look-up that gets the text is its document. -/
theorem Gets.cached (h : c.Gets s options) {found : ParameterValue}
    (hcached : c.provider.cachedValue? c.name options s = some found) : found = content := by
  rcases h.2 with hsince | ⟨-, hnone⟩
  · have hexists : ∃ stored, s.cache.find? (c.provider.singleKey c.name options) =
        some ⟨.value found, stored⟩ :=
      Provider.exists_kept_of_known (q := .ofName c.name options) hcached
    obtain ⟨stored, hkept⟩ := hexists
    rw [h.1.singleKey] at hkept
    exact Cached.value.inj ((hsince.held hdecoded).kept _ hkept)
  · rw [hnone] at hcached
    cases hcached

/-- What is genuine for a look-up that gets the text is its document. -/
theorem Gets.genuine (h : c.Gets s options) {found : ParameterValue}
    (hgenuine : Genuine c.provider.source.name (c.store.Reads s.world.backend.parameters)
      (c.store.Lists s.world.backend.parameters) (c.provider.singleKey c.name options)
      (.value found)) : found = content := by
  rw [h.1.singleKey] at hgenuine
  exact Cached.value.inj (eq_of_genuine hdecoded (h.shown hdecoded) hgenuine)

/-- **What a look-up replies that gets the text is its document.** -/
theorem Gets.reply (h : c.Gets s options) {found : ParameterValue}
    (hok : (c.provider.get c.name options s).1 = .ok found) : found = content := by
  rw [Provider.get_eq_inquire] at hok
  rcases (c.truthful.bringsGenuine_ofName c.name options).served_or_genuine hok with
    hcached | hgenuine
  · exact h.cached hdecoded hcached
  · exact h.genuine hdecoded hgenuine

/-- **It replies that** unless a call is made to fail. -/
theorem Gets.get_of_calm (h : c.Gets s options) (hcalm : s.world.backend.recorder.Calm) :
    (c.provider.get c.name options s).1 = .ok content := by
  have hshown : c.store.reading s.world.backend.parameters c.name options.backend =
      .ok (.text c.text) := h.1.backend ▸ h.shown hdecoded
  have happly : options.transform.apply c.name (.text c.text) = .ok content := by
    rw [← Transform.apply_resolve, h.1.json, hdecoded]
  refine ((c.steady s.world.backend).get_eq c.name options ⟨hcalm, rfl⟩).1.trans ?_
  cases hcached : c.provider.cachedValue? c.name options s with
  | some found => exact congrArg Except.ok (h.cached hdecoded hcached)
  | none =>
      dsimp only
      rw [hshown]
      exact happly

omit hdecoded in
theorem calm_get (hcalm : s.world.backend.recorder.Calm) (name : String) (options : GetOptions) :
    (c.provider.get name options s).2.world.backend.recorder.Calm :=
  ((c.steady s.world.backend).get_eq name options ⟨hcalm, rfl⟩).2.2.1.1

/-! ### Batches -/

section Batches

variable {parameters : List (String × Overrides)} {batch : BatchOptions} {overrides : Overrides}
  (hname : (requested parameters).get? c.name = some overrides)
  (h : c.Gets s (batch.forName overrides)) {result : BatchResult}
  (hok : (c.provider.getByName parameters batch s).1 = .ok result)

include hname h hok

/-- **What stands under the name in the result of a batch is the document of the text.** -/
theorem Gets.value {found : ParameterValue} (hfound : result.values.get? c.name = some found) :
    found = content := by
  rcases c.truthful.getByName_served_or_genuine hok hname hfound with hcached | hgenuine
  · exact h.cached hdecoded hcached
  · exact h.genuine hdecoded hgenuine

/-- **It stands there** unless a call is made to fail. -/
theorem Gets.value_of_calm (hcalm : s.world.backend.recorder.Calm) :
    result.values.get? c.name = some content :=
  (c.steady s.world.backend).get?_of_getByName_ok ⟨hcalm, rfl⟩ hok hname
    (h.get_of_calm hdecoded hcalm)

end Batches

omit hdecoded in
/-- A batch comes to a result if it is graceful or if each of its look-ups replies something. -/
theorem exists_result {parameters : List (String × Overrides)} {batch : BatchOptions}
    (hcalm : s.world.backend.recorder.Calm)
    (hreserved : errorsKey ∉ (requested parameters).names)
    (h : batch.strict = false ∨ ∀ entry ∈ (requested parameters).entries,
      ∃ found, (c.provider.get entry.1 (batch.forName entry.2) s).1 = .ok found) :
    ∃ result, (c.provider.getByName parameters batch s).1 = .ok result := by
  rcases h with hgraceful | hgets
  · have hsame : batch = { batch with strict := false } := by rw [← hgraceful]
    exact ⟨_, hsame ▸ Provider.getByName_graceful hreserved⟩
  · exact (c.steady s.world.backend).exists_getByName_ok ⟨hcalm, rfl⟩ hreserved hgets

/-! ### Values -/

omit hdecoded in
/-- **The text of a document that stands for a value delivers the value**, by a look-up that
fetches, by one that the cache serves, and in a batch. -/
theorem delivers {α : Type} {reading : Reading α} {value : α} {d : Document}
    (hd : d.StandsFor reading value) (htext : c.text = d.render) : c.Delivers reading value := by
  have hdecoded : Transform.json.apply c.name (.text c.text) = .ok (.document d.sorted) := by
    rw [htext]
    exact (hd.decoded c.name).1
  have hread := (hd.decoded c.name).2
  refine ⟨fun s secure => shown_put s, fun s options h => ⟨fun found hok => ?_, fun hcalm => ?_⟩,
    fun s parameters options overrides hname h => ⟨fun result hok => ⟨fun found hfound => ?_,
      fun hcalm => ?_⟩, fun hcalm hreserved => exists_result hcalm hreserved⟩⟩
  · rw [h.reply hdecoded hok, hread]
  · exact ⟨_, h.get_of_calm hdecoded hcalm⟩
  · rw [h.value hdecoded hname hok hfound, hread]
  · exact ⟨_, h.value_of_calm hdecoded hname hok hcalm⟩

end Deposit

/-- **Typed values survive the whole pipeline**: the text of a document is stored as a parameter,
fetched with the json transform, alone or in a batch, from the store or from the cache, and read at
the type of the value. This gives limits back for all their documents, the compact one of the record
among them, and lists and dictionaries of counts for theirs. -/
theorem typed_values_survive :
    (∀ limits : Limits, limits.Fits → limits.Spells limits.toDocument ∧
      ∀ d, limits.Spells d → ∀ c : Deposit, c.text = d.render →
        c.Delivers Limits.reading limits) ∧
    (∀ values : List ℤ, (∀ value ∈ values, IsCount value) →
      ∀ c : Deposit, c.text = (Document.list (values.map .integer)).render →
        c.Delivers (.list .count) values) ∧
    ∀ dict : Dict ℤ, (∀ entry ∈ dict.entries, IsCount entry.2) →
      ∀ members, members.Perm (dict.entries.map fun entry => (entry.1, .integer entry.2)) →
        ∀ c : Deposit, c.text = (Document.object members).render →
          c.Delivers (.dict .count) dict := by
  refine ⟨fun limits hfits => ⟨limits.spells_toDocument, fun d hd c htext => ?_⟩,
    fun values hvalues c htext => ?_, fun dict hdict members hperm c htext => ?_⟩
  · exact Deposit.delivers (hd.standsFor hfits) htext
  · exact Deposit.delivers (Reading.standsFor_list hvalues) htext
  · exact Deposit.delivers (Reading.standsFor_dict hdict hperm) htext

/-- A text under a name, with nothing said beyond that. -/
def Deposit.plain (name text : String) : Deposit := ⟨false, defaultMaxAge, name, .empty, text⟩

/-- The three kinds of values on the three ways. Limits without a burst are fetched from an object
in another order with one more member, a list with the least and the greatest count comes with a
batch, and a dictionary is served by the cache after it was fetched. -/
theorem typed_values_survive_three_ways :
    (let c := Deposit.plain "/app/limits" (Document.object
        [("regions", .list [.text "eu-west-1", .text "é\n"]), ("rps", .integer 250),
          ("zone", .list [.object [("b", .null), ("a", .null)]])]).render
      ∃ found, (c.provider.get c.name { transform := .json } c.start).1 = .ok found ∧
        found.read Limits.reading = .ok ⟨250, none, ["eu-west-1", "é\n"]⟩) ∧
    (let c := Deposit.plain "/app/list.json"
        (Document.list [.integer 0, .integer 4294967295]).render
      ∃ result found,
        (c.provider.getByName [(c.name, { transform := some .auto })] {} c.start).1 = .ok result ∧
        result.values.get? c.name = some found ∧
        found.read (.list .count) = .ok [0, 4294967295]) ∧
    (let c := Deposit.plain "/app/map"
        (Document.object [("é", .integer 2), ("a", .integer 1)]).render
      let fetched := (c.provider.get c.name { transform := .json } c.start).2
      ∃ found, (c.provider.get c.name { transform := .json, maxAge := some (.ofSeconds 1) }
          fetched).1 = .ok found ∧
        found.read (.dict .count) = .ok (.ofList [("a", 1), ("é", 2)])) := by
  obtain ⟨hlimits, hlist, hdict⟩ := typed_values_survive
  refine ⟨?_, ?_, ?_⟩
  · intro c
    have hothers : ∀ other ∈ [("zone", Document.list [.object [("b", .null), ("a", .null)]])],
        other.1 ∉ Limits.fieldNames ∧ other.2.Exact := by
      rintro other hmem
      obtain rfl := List.mem_singleton.mp hmem
      exact ⟨by decide, ⟨trivial, trivial, trivial⟩, trivial⟩
    have hdelivers := (hlimits ⟨250, none, ["eu-west-1", "é\n"]⟩ ⟨by decide, by decide⟩).2 _
      (.object (.swap ..) .absent hothers (by decide)) c rfl
    obtain ⟨hread, hreplies⟩ := hdelivers.single c.start { transform := .json }
      ⟨⟨rfl, rfl⟩, .inl Deposit.since_start⟩
    obtain ⟨found, hfound⟩ := hreplies fun _ => rfl
    exact ⟨found, hfound, hread found hfound⟩
  · intro c
    have hdelivers := hlist [0, 4294967295] (by decide) c rfl
    have hgets : c.Gets c.start (BatchOptions.forName {} { transform := some .auto }) :=
      ⟨⟨by decide, rfl⟩, .inl Deposit.since_start⟩
    have hreplies := (hdelivers.single c.start _ hgets).2 fun _ => rfl
    obtain ⟨hresults, hcomes⟩ := hdelivers.batch c.start [(c.name, { transform := some .auto })]
      {} { transform := some .auto } rfl hgets
    obtain ⟨result, hresult⟩ := hcomes (fun _ => rfl) (by decide) <| .inr fun entry hentry => by
      obtain rfl := List.mem_singleton.mp hentry
      exact hreplies
    obtain ⟨hread, hstands⟩ := hresults result hresult
    obtain ⟨found, hfound⟩ := hstands fun _ => rfl
    exact ⟨result, found, hresult, hfound, hread found hfound⟩
  · intro c fetched
    have hdelivers := hdict (.ofList [("a", 1), ("é", 2)]) (by decide) _ (.swap ..) c rfl
    have hsince : c.Since fetched :=
      Deposit.since_start.serve (.get c.name { transform := .json })
    obtain ⟨hread, hreplies⟩ := hdelivers.single fetched
      { transform := .json, maxAge := some (.ofSeconds 1) } ⟨⟨rfl, rfl⟩, .inl hsince⟩
    obtain ⟨found, hfound⟩ := hreplies (Deposit.calm_get (fun _ => rfl) _ _)
    exact ⟨found, hfound, hread found hfound⟩

end CachedParameters.Memory
