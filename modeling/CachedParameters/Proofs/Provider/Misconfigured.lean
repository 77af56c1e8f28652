import CachedParameters.Memory.Scripted
import CachedParameters.Proofs.Batch.Modes
import CachedParameters.Proofs.Source.Failures

/-!
# Failures of the configuration

A fetch may fail because a backend did, or because something was set up wrongly, which is a failure
of the kind `configuration`. A failure of the second kind is not one to go on with, but a batch does
not ask what kind a failure is: a graceful batch goes on behind every call that failed, and a source
that looks up the names of a bulk one by one goes on behind every name. So such a failure ends a
look-up of a name, a listing, and a strict batch whose source has a bulk look-up of its own, and no
other batch.

A call of the provider is not always a call of the backend. What a request fetches is therefore seen
behind the bulk look-up that a source is given: `Backing.watched` writes down the names that are
looked up one by one. Being watched there changes nothing either.

## Main results

- `Backing.serve_watched`: requests are served as if nobody watched.
- `Backing.failure?_of_fetched`: a request that recovers from nothing fails as its fetch did.
- `Backing.kind_ne_of_recovers`: a request that recovers does not fail for its configuration.
- `Backing.misconfigured_iff`: which requests a failure of the configuration ends.
-/

namespace CachedParameters

open Batch Provider

variable {σ : Type}

/-! ### Failures and faults -/

/-- An outcome that has a failure is that failure. -/
theorem Except.eq_error_of_failure? {ε α : Type} {outcome : Except ε α} {e : ε}
    (h : Except.failure? outcome = some e) : outcome = .error e := by
  cases outcome with
  | ok value => cases h
  | error other => exact congrArg Except.error (Option.some.inj h)

/-- The failure that a call was answered with, if it was one. -/
def Exchange.failure? (exchange : Exchange) : Option Error :=
  match exchange.answer with
  | .one _ _ outcome => Except.failure? outcome
  | .many _ _ outcome => Except.failure? outcome
  | .bulk _ _ outcome => Except.failure? outcome

/-- The failure that a request is replied with, if it is one. -/
def Reply.failure? : Reply → Option Error
  | .value outcome => Except.failure? outcome
  | .values outcome => Except.failure? outcome
  | .batch outcome => Except.failure? outcome
  | .cleared => none

/-- A call that succeeded shows no fault but one to decode. -/
theorem Batch.Answered.kind_of_fault {answered : Answered} {bulk : BulkFetch}
    (hok : answered.outcome = .ok bulk) {e : Error} (h : answered.fault? = some e) :
    e.kind = .transform := by
  rw [Answered.fault?, hok] at h
  obtain ⟨settled, hmem, herror⟩ := List.exists_of_findSome?_eq_some h
  obtain ⟨pending, -, rfl⟩ := List.mem_map.mp hmem
  rw [hok, Pending.fate] at herror
  split at herror
  · cases herror
  · split at herror
    · cases herror
    · rename_i happly
      obtain rfl := Option.some.inj herror
      exact Transform.kind_of_apply happly

/-- A batch that came to a result fails for the names that are missing, if at all. -/
theorem kind_ne_of_conclusion {strict : Bool} {result : BatchResult} {e : Error}
    (h : conclusion strict result = .error e) : e.kind ≠ .configuration := by
  rw [conclusion] at h
  split at h
  · obtain rfl := Except.error.inj h
    intro hkind
    cases hkind
  · cases h

namespace Provider

/-- The calls of a strict plan end with the first fault, so every fault among them is the first. -/
theorem findSome?_answers (p : Provider σ) (calls : List BulkCall) (world : World σ)
    {answered : Answered} (hmem : answered ∈ (p.answers true calls world).1) {e : Error}
    (hfault : answered.fault? = some e) :
    (p.answers true calls world).1.findSome? (·.fault?) = some e := by
  induction calls generalizing world with
  | nil => exact absurd hmem List.not_mem_nil
  | cons call rest ih =>
      rcases hquiet : (p.source.fetchBulk call.names call.options).quiet world with
        ⟨outcome, after⟩
      rcases Answered.goesOn_or_ends ⟨call, outcome, after.now⟩ true with hgo | ⟨-, first, hfirst⟩
      · -- The plan goes on behind this call, so the fault is not here.
        rw [answers_cons hquiet hgo] at hmem ⊢
        rw [List.findSome?_cons, hgo rfl]
        rcases List.mem_cons.mp hmem with rfl | hmem
        · rw [hgo rfl] at hfault
          cases hfault
        · exact ih after hmem
      · rw [answers_of_fault hquiet hfirst] at hmem ⊢
        obtain rfl := List.mem_singleton.mp hmem
        rw [List.findSome?_singleton, hfault]

/-- Every fault that a strict batch meets is its first. -/
theorem findSome?_answered {p : Provider σ} {parameters : List (String × Overrides)}
    {options : BatchOptions} (hstrict : options.strict = true) {s : State σ} {answered : Answered}
    (hmem : answered ∈ p.answered parameters options s) {e : Error}
    (hfault : answered.fault? = some e) :
    (p.answered parameters options s).findSome? (·.fault?) = some e := by
  rw [Provider.answered, hstrict] at hmem ⊢
  exact p.findSome?_answers _ _ hmem hfault

/-- The calls that were answered got what the source answered. -/
theorem outcome_of_mem_answers (p : Provider σ) (strict : Bool) (calls : List BulkCall)
    (world : World σ) {answered : Answered} (hmem : answered ∈ (p.answers strict calls world).1) :
    ∃ before, answered.outcome =
      ((p.source.fetchBulk answered.call.names answered.call.options).quiet before).1 := by
  induction calls generalizing world with
  | nil => exact absurd hmem List.not_mem_nil
  | cons call rest ih =>
      simp only [answers] at hmem
      split at hmem
      · obtain rfl := List.mem_singleton.mp hmem
        exact ⟨world, rfl⟩
      · rcases List.mem_cons.mp hmem with rfl | hmem
        · exact ⟨world, rfl⟩
        · exact ih _ hmem

end Provider

/-! ### Fetches -/

/-- How a source comes by its bulk look-up: it has one of its own, or the names are looked up one by
one, as `BulkFetch` is filled where a source has nothing better. -/
inductive Backing (σ : Type) where
  | own (source : Source σ)
  | singles (name : String) (fetchOne : String → BackendOptions → Fetch σ RawValue)
    (fetchMany : String → BackendOptions → Fetch σ Listing)

namespace Backing

def source : Backing σ → Source σ
  | .own source => source
  | .singles name fetchOne fetchMany => .ofSingles name fetchOne fetchMany

/-- The source, its fetches written down: names that are looked up one by one are seen one by
one. -/
def watched : Backing σ → Source (Watched σ)
  | .own source => source.watched
  | .singles name fetchOne fetchMany =>
    .ofSingles name (fun name options => (fetchOne name options).watched (.one name options))
      fun path options => (fetchMany path options).watched (.many path options)

def provider (backing : Backing σ) (maxAge : Duration) : Provider σ := ⟨backing.source, maxAge⟩

/-- The provider, every fetch of its source written down. -/
def watchedProvider (backing : Backing σ) (maxAge : Duration) : Provider (Watched σ) :=
  ⟨backing.watched, maxAge⟩

/-- What a request fetches, as it is seen behind the bulk look-up of the source. -/
def fetches (backing : Backing σ) (maxAge : Duration) (request : Request) (s : State σ) :
    List Exchange :=
  ((backing.watchedProvider maxAge).serve request (s.watch [])).2.world.backend.seen

/-- Whether a request goes on behind a fetch that failed: a graceful batch does, and one whose names
are looked up one by one. -/
def Recovers : Backing σ → Request → Prop
  | .own _, .getByName _ options => options.strict = false
  | .singles .., .getByName .. => True
  | _, .get .. | _, .getMultiple .. | _, .clear => False

variable (backing : Backing σ) (maxAge : Duration)

/-! ### Being watched -/

/-- Names are looked up one by one as if nobody watched. -/
theorem fetchEach_watched (name : String) (fetchOne : String → BackendOptions → Fetch σ RawValue)
    (options : BackendOptions) (bulk : BulkFetch) (names : List String)
    (world : World (Watched σ)) :
    let watchedOne := fun name options => (fetchOne name options).watched (.one name options)
    (Source.fetchEach name watchedOne options bulk names world).1 =
        (Source.fetchEach name fetchOne options bulk names world.unwatch).1 ∧
      (Source.fetchEach name watchedOne options bulk names world).2.unwatch =
        (Source.fetchEach name fetchOne options bulk names world.unwatch).2 := by
  intro watchedOne
  induction names generalizing bulk world with
  | nil => exact ⟨rfl, rfl⟩
  | cons first rest ih =>
      have hfirst : watchedOne first options world =
        (fetchOne first options).watched (.one first options) world := rfl
      rw [Source.fetchEach, Source.fetchEach, hfirst, Fetch.watched]
      rcases fetchOne first options world.unwatch with ⟨outcome, after⟩
      cases outcome with
      | ok value => exact ih _ _
      | error e => exact ih _ _

/-- A bulk look-up is made as if nobody watched. -/
theorem fetchBulk_watched (names : List String) (options : BackendOptions)
    (world : World (Watched σ)) :
    ((backing.watched.fetchBulk names options).quiet world).1 =
        ((backing.source.fetchBulk names options).quiet world.unwatch).1 ∧
      ((backing.watched.fetchBulk names options).quiet world).2.unwatch =
        ((backing.source.fetchBulk names options).quiet world.unwatch).2 := by
  cases backing with
  | own source => exact ⟨rfl, rfl⟩
  | singles name fetchOne fetchMany =>
      obtain ⟨hbulk, hafter⟩ :=
        fetchEach_watched name fetchOne options {} names { world with notes := [] }
      exact ⟨congrArg Except.ok hbulk,
        congrArg (fun after : World σ => { after with notes := [] }) hafter⟩

/-- The calls of a plan are answered as if nobody watched. -/
theorem answers_watched (strict : Bool) (calls : List BulkCall) (world : World (Watched σ)) :
    ((backing.watchedProvider maxAge).answers strict calls world).1 =
        ((backing.provider maxAge).answers strict calls world.unwatch).1 ∧
      ((backing.watchedProvider maxAge).answers strict calls world).2.unwatch =
        ((backing.provider maxAge).answers strict calls world.unwatch).2 := by
  induction calls generalizing world with
  | nil => exact ⟨rfl, rfl⟩
  | cons call rest ih =>
      obtain ⟨houtcome, hafter⟩ := backing.fetchBulk_watched call.names call.options world
      rcases hquiet : (backing.watched.fetchBulk call.names call.options).quiet world with
        ⟨outcome, after⟩
      have hplain : (backing.source.fetchBulk call.names call.options).quiet world.unwatch =
          (outcome, after.unwatch) := by
        rw [hquiet] at houtcome hafter
        exact Prod.ext houtcome.symm hafter.symm
      rcases Answered.goesOn_or_ends ⟨call, outcome, after.now⟩ strict with hgo | ⟨rfl, e, he⟩
      · rw [answers_cons (p := backing.watchedProvider maxAge) hquiet hgo,
          answers_cons (p := backing.provider maxAge) hplain hgo, (ih after).1, (ih after).2]
        exact ⟨rfl, rfl⟩
      · rw [answers_of_fault (p := backing.watchedProvider maxAge) hquiet he,
          answers_of_fault (p := backing.provider maxAge) hplain he]
        exact ⟨rfl, rfl⟩

/-- The plan of a batch is made as if nobody watched. -/
theorem planned_watched (parameters : List (String × Overrides)) (options : BatchOptions)
    (s : State σ) :
    (backing.watchedProvider maxAge).planned parameters options (s.watch []) =
      (backing.provider maxAge).planned parameters options s := by
  have hgroups := (backing.provider maxAge).planned_grouped parameters options s
  have hwatched := (backing.watchedProvider maxAge).planned_grouped parameters options (s.watch [])
  have hmisses : ((backing.watchedProvider maxAge).misses options (s.watch [])
        (requested parameters).entries).map
          ((backing.watchedProvider maxAge).deferredOf options) =
      ((backing.provider maxAge).misses options s (requested parameters).entries).map
        ((backing.provider maxAge).deferredOf options) := by cases backing <;> rfl
  have hlimit : backing.watched.bulkLimit = backing.source.bulkLimit := by cases backing <;> rfl
  rw [hmisses] at hwatched
  -- Both intakes put off the same names, and that determines the groups.
  have hsame : ((backing.watchedProvider maxAge).takeIn options {} (requested parameters).entries
        (s.watch [])).1.groups =
      ((backing.provider maxAge).takeIn options {} (requested parameters).entries s).1.groups :=
    Dict.ext fun fingerprint => (hwatched fingerprint).trans (hgroups fingerprint).symm
  rw [planned, planned, hsame, watchedProvider, provider, hlimit]

/-- A batch goes as if nobody watched. Its calls are those of the plan, and each of them is watched
behind the bulk look-up. -/
theorem getByName_watched (parameters : List (String × Overrides)) (options : BatchOptions)
    (s : State σ) :
    let mirrored := (backing.watchedProvider maxAge).getByName parameters options (s.watch [])
    let plain := (backing.provider maxAge).getByName parameters options s
    mirrored.1 = plain.1 ∧ mirrored.2.world.unwatch = plain.2.world ∧
      mirrored.2.cache = plain.2.cache := by
  intro mirrored plain
  by_cases hreserved : errorsKey ∈ (requested parameters).names
  · have hmirrored : mirrored = (.error .reservedName, s.watch []) :=
      getByName_of_reserved hreserved
    have hplain : plain = (.error .reservedName, s) := getByName_of_reserved hreserved
    rw [hmirrored, hplain]
    exact ⟨rfl, rfl, rfl⟩
  · obtain ⟨hreply, hworld, hcache⟩ :=
      @getByName_eq σ (backing.provider maxAge) parameters options s hreserved
    obtain ⟨hreply', hworld', hcache'⟩ := @getByName_eq (Watched σ)
      (backing.watchedProvider maxAge) parameters options (s.watch []) hreserved
    obtain ⟨hanswers, hafter⟩ := backing.answers_watched maxAge options.strict
      ((backing.provider maxAge).planned parameters options s) (s.world.watch [])
    have hanswered : (backing.watchedProvider maxAge).answered parameters options (s.watch []) =
        (backing.provider maxAge).answered parameters options s := by
      rw [answered, planned_watched]
      exact hanswers
    have hsettled : (backing.watchedProvider maxAge).settled parameters options (s.watch []) =
        (backing.provider maxAge).settled parameters options s := by
      rw [settled, hanswered, settled]
    have hhits : (backing.watchedProvider maxAge).hits options (s.watch [])
          (requested parameters).entries =
        (backing.provider maxAge).hits options s (requested parameters).entries := by
      cases backing <;> rfl
    rw [planned_watched] at hworld'
    rw [hanswered, collected, hsettled, hhits] at hreply'
    rw [hsettled] at hcache'
    exact ⟨hreply'.trans hreply.symm, (congrArg World.unwatch hworld').trans
      (hafter.trans hworld.symm), hcache'.trans hcache.symm⟩

/-- A listing goes as if nobody watched. -/
theorem getMultiple_watched (path : String) (options : GetOptions) (s : State σ) :
    let mirrored := (backing.watchedProvider maxAge).getMultiple path options (s.watch [])
    let plain := (backing.provider maxAge).getMultiple path options s
    mirrored.1 = plain.1 ∧ mirrored.2.world.unwatch = plain.2.world ∧
      mirrored.2.cache = plain.2.cache := by
  intro mirrored plain
  have hmirrored : mirrored = _ :=
    (backing.watchedProvider maxAge).getMultiple_eq_inquire path options (s.watch [])
  have hplain : plain = _ := (backing.provider maxAge).getMultiple_eq_inquire path options s
  have hcached : (backing.watchedProvider maxAge).known? (.ofPath .byName path options)
        (s.watch []) =
      (backing.provider maxAge).known? (.ofPath .byName path options) s := by
    cases backing <;> rfl
  rw [hmirrored, hplain]
  cases h : (backing.provider maxAge).known? (.ofPath .byName path options) s with
  | some values =>
      rw [inquire_of_known h, inquire_of_known (hcached.trans h)]
      exact ⟨rfl, rfl, rfl⟩
  | none =>
      -- The two providers differ in their bulk look-ups, so they decode the same but are not the
      -- same by definition; what they bring is.
      obtain ⟨hreply, hworld, hcache⟩ := inquire_of_unknown h
      obtain ⟨hreply', hworld', hcache'⟩ := inquire_of_unknown (hcached.trans h)
      refine ⟨hreply'.trans (Eq.trans ?_ hreply.symm),
        (congrArg World.unwatch hworld').trans (Eq.trans ?_ hworld.symm),
        hcache'.trans (Eq.trans ?_ hcache.symm)⟩ <;> cases backing <;> rfl

/-- **Requests are served as if nobody watched.** So what is seen of a request behind the bulk
look-up is what it really fetches. -/
theorem serve_watched (request : Request) (s : State σ) :
    let mirrored := (backing.watchedProvider maxAge).serve request (s.watch [])
    let plain := (backing.provider maxAge).serve request s
    mirrored.1 = plain.1 ∧ mirrored.2.world.unwatch = plain.2.world ∧
      mirrored.2.cache = plain.2.cache := by
  intro mirrored plain
  cases request with
  | getByName parameters options =>
      obtain ⟨hreply, hafter⟩ := backing.getByName_watched maxAge parameters options s
      exact ⟨congrArg Reply.batch hreply, hafter⟩
  | get name options =>
      have hmirrored : mirrored = (backing.provider maxAge).watched.serve (.get name options)
        (s.watch []) := by cases backing <;> rfl
      rw [hmirrored, serve_watch]
      exact ⟨rfl, rfl, rfl⟩
  | getMultiple path options =>
      obtain ⟨hreply, hafter⟩ := backing.getMultiple_watched maxAge path options s
      exact ⟨congrArg Reply.values hreply, hafter⟩
  | clear => exact ⟨rfl, rfl, rfl⟩

/-! ### Requests that recover from nothing -/

/-- A look-up of a name fails as its fetch does. -/
theorem get_eq_error_of_fetched {name : String} {options : GetOptions} {s : State σ}
    {exchange : Exchange} (hmem : exchange ∈ backing.fetches maxAge (.get name options) s)
    {e : Error} (hfailed : exchange.failure? = some e) :
    ((backing.provider maxAge).get name options s).1 = .error e := by
  have hfetches : backing.fetches maxAge (.get name options) s =
      (backing.provider maxAge).exchanges (.get name options) s := by cases backing <;> rfl
  rw [hfetches] at hmem
  rw [exchanges_get] at hmem
  obtain ⟨hunknown, rfl⟩ := eq_of_mem_calls hmem
  have herror := Except.eq_error_of_failure? hfailed
  rw [get_eq_inquire]
  exact (inquire_of_unknown hunknown).1.trans
    (congrArg (·.bind (options.transform.apply name)) herror)

/-- A listing fails as its fetch does. -/
theorem getMultiple_eq_error_of_fetched {path : String} {options : GetOptions} {s : State σ}
    {exchange : Exchange} (hmem : exchange ∈ backing.fetches maxAge (.getMultiple path options) s)
    {e : Error} (hfailed : exchange.failure? = some e) :
    ((backing.provider maxAge).getMultiple path options s).1 = .error e := by
  have hcached : (backing.watchedProvider maxAge).known? (.ofPath .byName path options)
        (s.watch []) =
      (backing.provider maxAge).known? (.ofPath .byName path options) s := by
    cases backing <;> rfl
  have hseen : backing.fetches maxAge (.getMultiple path options) s =
    ((backing.watchedProvider maxAge).getMultiple path options
      (s.watch [])).2.world.backend.seen := rfl
  rw [hseen, getMultiple_eq_inquire] at hmem
  rw [getMultiple_eq_inquire]
  cases h : (backing.provider maxAge).known? (.ofPath .byName path options) s with
  | some values =>
      rw [inquire_of_known (hcached.trans h)] at hmem
      exact absurd hmem List.not_mem_nil
  | none =>
      have houtcome : ((backing.watchedProvider maxAge).bring (.ofPath .byName path options)
            (s.watch []).world).2.backend.seen =
          [⟨.many path options.backend
              ((backing.source.fetchMany path options.backend).quiet s.world).1,
            ((backing.source.fetchMany path options.backend).quiet s.world).2.now⟩] := by
        cases backing <;> rfl
      rw [(inquire_of_unknown (hcached.trans h)).2.1, houtcome] at hmem
      obtain rfl := List.mem_singleton.mp hmem
      have herror : ((backing.source.fetchMany path options.backend).quiet s.world).1 = .error e :=
        Except.eq_error_of_failure? hfailed
      exact (inquire_of_unknown h).1.trans
        (congrArg (·.bind (·.decode options.transform options.strict)) herror)

/-- A strict batch whose source has a bulk look-up of its own fails as a call of its does. -/
theorem getByName_eq_error_of_fetched {source : Source σ} {parameters : List (String × Overrides)}
    {options : BatchOptions} (hstrict : options.strict = true) {s : State σ} {exchange : Exchange}
    (hmem : exchange ∈ (own source).fetches maxAge (.getByName parameters options) s) {e : Error}
    (hfailed : exchange.failure? = some e) :
    (((own source).provider maxAge).getByName parameters options s).1 = .error e := by
  have hfetches : (own source).fetches maxAge (.getByName parameters options) s =
    ((own source).provider maxAge).exchanges (.getByName parameters options) s := rfl
  rw [hfetches] at hmem
  by_cases hreserved : errorsKey ∈ (requested parameters).names
  · rw [exchanges_getByName_of_reserved hreserved] at hmem
    exact absurd hmem List.not_mem_nil
  · rw [exchanges_getByName hreserved] at hmem
    obtain ⟨answered, hanswered, rfl⟩ := List.mem_map.mp hmem
    have hfault : answered.fault? = some e := by
      rw [Answered.fault?, Except.eq_error_of_failure? hfailed]
    rw [(getByName_eq hreserved).1, hstrict, findSome?_answered hstrict hanswered hfault]
    rfl

/-- **A request that recovers from nothing fails as its fetch did**, of whatever kind that failure
is. -/
theorem failure?_of_fetched {request : Request} (h : ¬ backing.Recovers request) {s : State σ}
    {exchange : Exchange} (hmem : exchange ∈ backing.fetches maxAge request s) {e : Error}
    (hfailed : exchange.failure? = some e) :
    ((backing.provider maxAge).serve request s).1.failure? = some e := by
  cases request with
  | get name options =>
      exact congrArg Except.failure? (backing.get_eq_error_of_fetched maxAge hmem hfailed)
  | getMultiple path options =>
      exact congrArg Except.failure? (backing.getMultiple_eq_error_of_fetched maxAge hmem hfailed)
  | getByName parameters options =>
      cases backing with
      | singles name fetchOne fetchMany => exact absurd trivial h
      | own source =>
          have hstrict : options.strict = true := by simpa [Recovers] using h
          exact congrArg Except.failure? (getByName_eq_error_of_fetched maxAge hstrict hmem hfailed)
  | clear => exact absurd hmem List.not_mem_nil

/-! ### Requests that recover -/

/-- A batch whose names are looked up one by one fails to be decoded or misses names, if it makes
any call at all. -/
theorem kind_ne_of_singles {name : String} {fetchOne : String → BackendOptions → Fetch σ RawValue}
    {fetchMany : String → BackendOptions → Fetch σ Listing}
    {parameters : List (String × Overrides)} (h : errorsKey ∉ (requested parameters).names)
    {options : BatchOptions} {s : State σ} {e : Error}
    (hfails : (((singles name fetchOne fetchMany).provider maxAge).getByName parameters options
      s).1 = .error e) : e.kind ≠ .configuration := by
  rw [(getByName_eq h).1] at hfails
  cases hfault : (((singles name fetchOne fetchMany).provider maxAge).answered parameters options
      s).findSome? (·.fault?) with
  | none =>
      rw [hfault] at hfails
      exact kind_ne_of_conclusion hfails
  | some fault =>
      rw [hfault, conclude] at hfails
      split at hfails
      · obtain rfl := Except.error.inj hfails
        obtain ⟨answered, hmem, hfault⟩ := List.exists_of_findSome?_eq_some hfault
        obtain ⟨before, houtcome⟩ := Provider.outcome_of_mem_answers _ _ _ _ hmem
        rw [Answered.kind_of_fault houtcome hfault]
        decide
      · exact kind_ne_of_conclusion hfails

/-- **A request that recovers does not fail for its configuration**, if it fetches anything. Only
batches recover; if one asks for the reserved name, it fetches nothing. -/
theorem kind_ne_of_recovers {request : Request} (h : backing.Recovers request) {s : State σ}
    (hfetches : backing.fetches maxAge request s ≠ []) {e : Error}
    (hfails : ((backing.provider maxAge).serve request s).1.failure? = some e) :
    e.kind ≠ .configuration := by
  cases request with
  | get name options => cases backing <;> exact absurd h id
  | getMultiple path options => cases backing <;> exact absurd h id
  | clear => cases backing <;> exact absurd h id
  | getByName parameters options =>
      have hallowed : errorsKey ∉ (requested parameters).names := by
        intro hreserved
        refine hfetches ?_
        rw [fetches, serve, getByName_of_reserved hreserved]
        rfl
      have hreply : ((backing.provider maxAge).getByName parameters options s).1 = .error e :=
        Except.eq_error_of_failure? hfails
      cases backing with
      | singles name fetchOne fetchMany => exact kind_ne_of_singles maxAge hallowed hreply
      | own source =>
          have hgraceful : options.strict = false := h
          rw [(getByName_eq hallowed).1, hgraceful, conclude_false] at hreply
          cases hreply

/-- **Which requests a failure of the configuration ends**: if something that a request fetches
fails so, the request fails so as well unless it goes on behind failed fetches. -/
theorem misconfigured_iff {request : Request} {s : State σ}
    (h : ∃ exchange ∈ backing.fetches maxAge request s, ∃ e,
      exchange.failure? = some e ∧ e.kind = .configuration) :
    (∃ e, ((backing.provider maxAge).serve request s).1.failure? = some e ∧
        e.kind = .configuration) ↔ ¬ backing.Recovers request := by
  obtain ⟨exchange, hmem, fault, hfailed, hkind⟩ := h
  constructor
  · rintro ⟨e, hfails, hkind⟩ hrecovers
    exact backing.kind_ne_of_recovers maxAge hrecovers (List.ne_nil_of_mem hmem) hfails hkind
  · intro hrecovers
    exact ⟨fault, backing.failure?_of_fetched maxAge hrecovers hmem hfailed, hkind⟩

/-- A strict batch in two calls, the second of which fails for its configuration. -/
theorem misconfigured_iff_second_call :
    let backing : Backing Memory.Script := .own (Memory.Script.bulkSource (some 1))
    let e : Error := .reported .configuration "no table" []
    let script : Memory.Script :=
      { values := .ofList [("/a", .text "1")], failures := .ofList [("bulk:/b", e)] }
    let s : State Memory.Script := { world := { backend := script, now := .zero } }
    let request : Request := .getByName [("/a", {}), ("/b", {})] {}
    (∃ exchange ∈ backing.fetches defaultMaxAge request s, ∃ e,
        exchange.failure? = some e ∧ e.kind = .configuration) ∧
      ¬ backing.Recovers request ∧
      ∃ e, ((backing.provider defaultMaxAge).serve request s).1.failure? = some e ∧
        e.kind = .configuration := by
  intro backing e script s request
  have hfetched : (backing.fetches defaultMaxAge request s).map Exchange.failure? =
      [none, some e] := by
    dsimp only [backing, e, script, s, request]
    with_unfolding_all rfl
  have hmem : some e ∈ (backing.fetches defaultMaxAge request s).map Exchange.failure? :=
    hfetched ▸ List.mem_cons_of_mem _ List.mem_cons_self
  obtain ⟨exchange, hexchange, hfailed⟩ := List.mem_map.mp hmem
  have hstrict : ¬ backing.Recovers request := fun h => Bool.false_ne_true h.symm
  have h : ∃ exchange ∈ backing.fetches defaultMaxAge request s, ∃ e,
      exchange.failure? = some e ∧ e.kind = .configuration :=
    ⟨exchange, hexchange, e, hfailed, rfl⟩
  exact ⟨h, hstrict, (backing.misconfigured_iff defaultMaxAge h).mpr hstrict⟩

/-- Batches that a failure of the configuration does not end: a graceful one comes to a result, and
where the names are looked up one by one a strict batch only misses the name. -/
theorem misconfigured_goes_on :
    let own : Backing Memory.Script := .own (Memory.Script.bulkSource none)
    let singles : Backing Memory.Script :=
      .singles "scripted" (fun name _ => Memory.Script.fetchOne name)
        fun path _ => Memory.Script.fetchMany path
    let e : Error := .reported .configuration "no table" []
    let script : Memory.Script := { failures := .ofList [("bulk:/a", e), ("one:/a", e)] }
    let s : State Memory.Script := { world := { backend := script, now := .zero } }
    let graceful : Request := .getByName [("/a", {})] { strict := false }
    let strict : Request := .getByName [("/a", {})] {}
    let nothing : BatchResult := ⟨.empty, .ofList [("/a", ())]⟩
    e.kind = .configuration ∧
      ((own.fetches defaultMaxAge graceful s).map Exchange.failure? = [some e] ∧
        ((own.provider defaultMaxAge).serve graceful s).1 = .batch (.ok nothing)) ∧
      ((singles.fetches defaultMaxAge graceful s).map Exchange.failure? = [some e] ∧
        ((singles.provider defaultMaxAge).serve graceful s).1 = .batch (.ok nothing)) ∧
      (singles.fetches defaultMaxAge strict s).map Exchange.failure? = [some e] ∧
        ((singles.provider defaultMaxAge).serve strict s).1 =
          .batch (.error (.missing ["/a"])) ∧ (Error.missing ["/a"]).kind = .retrieval := by
  intro own singles e script s graceful strict nothing
  refine ⟨rfl, ⟨?_, ?_⟩, ⟨?_, ?_⟩, ?_, ?_, rfl⟩ <;>
    dsimp only [own, singles, e, script, s, graceful, strict, nothing] <;> with_unfolding_all rfl

end Backing

end CachedParameters
