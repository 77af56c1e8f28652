import CachedParameters.Proofs.Batch.Kept
import CachedParameters.Proofs.Machine
import CachedParameters.Proofs.Provider.Retrievals

/-!
# The history of a provider

A run of a provider is any sequence of requests (`get`, `get_multiple`, `get_parameters_by_name`,
`clear_cache`), interleaved with changes of the backend and of the clock. Its history are the
requests that were served, each with the calls that the source has seen of it. The last thing that
was retrieved for a key since the cache was last emptied can be read off the history alone, and it
is what decides the next request: the provider behaves as if it looked things up in its history, and
the cache is nothing but the memory of that.

The invariant is that the cache keeps for every key the last retrieval in the history. One step
keeps it by `Provider.serve_cache`, and a run keeps it by induction.

## Main results

- `Provider.run_faithful`: the cache keeps the last retrieval of every key, after every run.
- `Provider.cached?_of_serves`, `Provider.cached?_of_not_serves`: what the cache serves is the last
  retrieval, if that is fresh.
- `Provider.run_followsHistory`: what the history says about the next request, after every run.
-/

namespace CachedParameters

open Batch

/-- A request that was served, and the calls that it made, with their answers. -/
structure Transaction where
  request : Request
  exchanges : List Exchange

/-- The requests that were served, the latest first. -/
abbrev History := List Transaction

namespace History

/-- What was retrieved since the cache was last emptied, the latest first. -/
def retrievals (source : String) : History → List Retrieval
  | [] => []
  | ⟨.clear, _⟩ :: _ => []
  | ⟨request, exchanges⟩ :: earlier =>
    (request.retrievals source exchanges).reverse ++ retrievals source earlier

/-- What was last retrieved for a key since the cache was last emptied. -/
def last? (source : String) (history : History) (key : CacheKey) : Option Retrieval :=
  (history.retrievals source).find? fun retrieval => retrieval.key = key

/-- A request other than to empty the cache adds what it retrieves. -/
theorem retrievals_cons {source : String} {request : Request} (h : request ≠ .clear)
    (exchanges : List Exchange) (earlier : History) :
    retrievals source (⟨request, exchanges⟩ :: earlier) =
      (request.retrievals source exchanges).reverse ++ retrievals source earlier := by
  cases request with
  | get | getMultiple | getByName => rfl
  | clear => exact absurd rfl h

/-- What was last retrieved for the key of a name is a value, and for that of a path values. -/
theorem wellKept_of_last? {source : String} {history : History} {key : CacheKey}
    {retrieval : Retrieval} (h : history.last? source key = some retrieval) :
    retrieval.WellKept ∧ retrieval.key = key := by
  rw [last?] at h
  have hkey := List.find?_some h
  refine ⟨?_, of_decide_eq_true hkey⟩
  have hmem := List.mem_of_find?_eq_some h
  clear h
  induction history with
  | nil => exact absurd hmem List.not_mem_nil
  | cons transaction earlier ih =>
      obtain ⟨request, exchanges⟩ := transaction
      by_cases hclear : request = .clear
      · rw [hclear] at hmem
        exact absurd hmem List.not_mem_nil
      · rw [retrievals_cons hclear, List.mem_append, List.mem_reverse] at hmem
        rcases hmem with hmem | hmem
        · exact (Request.made_of_mem_retrievals hmem).wellKept
        · exact ih hmem

end History

/-- Something that happens to a provider: it serves a request, the backend changes by itself, or the
clock shows another time, which need not be a later one. -/
inductive Step (σ : Type) where
  | serve (request : Request)
  | backend (change : σ → σ)
  | clock (now : Instant)

/-- A provider at some point of a run: its state, and its history. -/
structure Past (σ : Type) where
  state : Provider.State σ
  history : History

namespace Provider

variable {σ : Type}

/-- Takes one step: a request is served and remembered with the calls that it made, while a change
of the backend or of the clock leaves no trace in the history. -/
def step (p : Provider σ) (past : Past σ) : Step σ → Past σ
  | .serve request =>
    { state := (p.serve request past.state).2
      history := ⟨request, p.exchanges request past.state⟩ :: past.history }
  | .backend change =>
    { past with
      state.world.backend := change past.state.world.backend }
  | .clock now => { past with state.world.now := now }

/-- Takes the steps of a run, from an empty cache and without any history. -/
def run (p : Provider σ) (world : World σ) (steps : List (Step σ)) : Past σ :=
  (Machine.silent p.step).run { state := { world }, history := [] } steps

/-- The cache keeps for every key what was last retrieved for it. -/
def Faithful (p : Provider σ) (past : Past σ) : Prop :=
  ∀ key, past.state.cache.find? key =
    (past.history.last? p.source.name key).map Retrieval.entry

/-! ### The invariant -/

/-- After retrievals were put in, a key finds the last one that was put in for it. -/
theorem find?_foldl_retain (retrievals : List Retrieval) (cache : Cache) (key : CacheKey) :
    (retrievals.foldl Cache.retain cache).find? key =
      ((retrievals.reverse.find? fun retrieval => retrieval.key = key).map
        Retrieval.entry).or (cache.find? key) := by
  induction retrievals generalizing cache with
  | nil => rfl
  | cons retrieval rest ih =>
      rw [List.foldl_cons, ih, List.reverse_cons, List.find?_append, Cache.retain,
        Assoc.find?_insert]
      cases rest.reverse.find? fun retrieval => retrieval.key = key with
      | some last => rfl
      | none =>
          by_cases h : retrieval.key = key
          · simp [h]
          · simp [h, Ne.symm h]

/-- Serving a request keeps the cache faithful: what it retrieves comes into the cache and to the
end of the history alike, and clearing forgets both. -/
theorem Faithful.serve {p : Provider σ} {past : Past σ} (h : p.Faithful past)
    (request : Request) : p.Faithful (p.step past (.serve request)) := by
  intro key
  by_cases hclear : request = .clear
  · rw [hclear]
    rfl
  · refine (congrArg (·.find? key) (p.serve_cache hclear past.state)).trans ?_
    rw [find?_foldl_retain, h key, History.last?, History.last?, step,
      History.retrievals_cons hclear, List.find?_append, Option.map_or]

/-- **The cache keeps the last retrieval of every key**, after every run. Only requests touch the
cache, and one lemma about a request is all that the induction needs. -/
theorem run_faithful (p : Provider σ) (world : World σ) (steps : List (Step σ)) :
    p.Faithful (p.run world steps) := by
  refine Machine.run_induction _ (fun _ => p.Faithful) (fun key => rfl) ?_ steps
  intro _ past step h
  cases step with
  | serve request => exact h.serve request
  | backend change => exact h
  | clock now => exact h

/-! ### What the cache serves -/

/-- A look-up is served by the last retrieval of its key: the cache is not passed over, and the
retrieval is younger than the age allowed. -/
def Serves (p : Provider σ) (past : Past σ) (key : CacheKey) (forceFetch : Bool)
    (maxAge : Option Duration) (last : Retrieval) : Prop :=
  forceFetch = false ∧ past.history.last? p.source.name key = some last ∧
    past.state.world.now.since last.time < maxAge.getD p.maxAge

variable {p : Provider σ} {past : Past σ} {key : CacheKey} {forceFetch : Bool}
  {maxAge : Option Duration} {α : Type} {pick : Cached → Option α}

/-- The cache serves what was last retrieved, if that is fresh. The time that matters is that of the
retrieval, since entries are stamped with it. -/
theorem cached?_of_serves (h : p.Faithful past) {last : Retrieval}
    (hserves : p.Serves past key forceFetch maxAge last) :
    p.cached? key forceFetch maxAge pick past.state = pick last.content := by
  obtain ⟨hforce, hlast, hfresh⟩ := hserves
  have hentry : past.state.cache.find? key = some last.entry := by
    rw [h key, hlast]
    rfl
  have hisFresh : last.entry.isFresh past.state.world.now (p.ageLimit maxAge) = true :=
    decide_eq_true hfresh
  rw [cached?, hforce, if_neg Bool.false_ne_true, Cache.fresh?, hentry, Option.filter_some,
    hisFresh]
  rfl

/-- Otherwise it serves nothing: a key without a retrieval has no entry, and an entry that is too
old is passed over. -/
theorem cached?_of_not_serves (h : p.Faithful past)
    (hserves : ¬ ∃ last, p.Serves past key forceFetch maxAge last) :
    p.cached? key forceFetch maxAge pick past.state = none := by
  cases hforce : forceFetch with
  | true => rw [cached?, if_pos rfl]
  | false =>
      rw [cached?, if_neg Bool.false_ne_true, Cache.fresh?, h key]
      cases hlast : past.history.last? p.source.name key with
      | none => rfl
      | some last =>
          have hstale : last.entry.isFresh past.state.world.now (p.ageLimit maxAge) = false :=
            decide_eq_false fun hfresh => hserves ⟨last, hforce, hlast, hfresh⟩
          rw [Option.map_some, Option.filter_some, hstale]
          rfl

section Inquiries

variable {ρ : Type} {q : Inquiry ρ α} {request : Request} {reply : Except Error α → Reply}

/-- An inquiry is served by what was last retrieved under its key. -/
theorem known?_of_serves (hposes : request.Poses q reply) (h : p.Faithful past)
    {last : Retrieval}
    (hserves : p.Serves past (q.key p.source.name) q.options.forceFetch q.options.maxAge last) :
    ∃ found, last.content = q.keep found ∧ p.known? q past.state = some found := by
  obtain ⟨hkept, hkey⟩ := History.wellKept_of_last? hserves.2.1
  obtain ⟨found, hfound⟩ := hposes.kept hkept hkey
  exact ⟨found, hfound, (cached?_of_serves h hserves).trans (q.kept?_eq_some_iff.mpr hfound)⟩

/-- An inquiry that the last retrieval serves replies that, makes no call, and changes nothing. -/
theorem inquire_of_serves (hposes : request.Poses q reply) (h : p.Faithful past)
    {last : Retrieval}
    (hserves : p.Serves past (q.key p.source.name) q.options.forceFetch q.options.maxAge last) :
    ∃ found, last.content = q.keep found ∧
      (p.inquire q past.state).1 = .ok found ∧
      p.calls q past.state = [] ∧
      (p.inquire q past.state).2.world = past.state.world ∧
      (p.inquire q past.state).2.cache = past.state.cache := by
  obtain ⟨found, hfound, hknown⟩ := known?_of_serves hposes h hserves
  rw [inquire_of_known hknown]
  exact ⟨found, hfound, rfl, calls_of_known hknown, rfl, rfl⟩

/-- What is kept after an attempt is new only under the key, and only if the attempt succeeded. -/
theorem find?_keep {cache after : Cache} {key : CacheKey} {time : Instant} {f : α → Cached}
    {outcome : Except Error α} (h : after = cache.keep key time (outcome.map f)) :
    (∀ e, outcome = .error e → after = cache) ∧
      ∀ a, outcome = .ok a → ∀ other, after.find? other =
        if other = key then some ⟨f a, time⟩ else cache.find? other := by
  constructor
  · rintro e rfl
    exact h
  · rintro a rfl other
    rw [h]
    exact Assoc.find?_insert ..

/-- Any other inquiry makes one call and replies what that brings. The cache changes only under the
key, and only if something was fetched and decoded. -/
theorem inquire_of_not_serves (h : p.Faithful past)
    (hnot : ¬ ∃ last,
      p.Serves past (q.key p.source.name) q.options.forceFetch q.options.maxAge last) :
    ∃ outcome, p.calls q past.state =
        [⟨q.answer outcome, (p.inquire q past.state).2.world.now⟩] ∧
      (p.inquire q past.state).1 = outcome.bind q.decode ∧
      (∀ e, (p.inquire q past.state).1 = .error e →
        (p.inquire q past.state).2.cache = past.state.cache) ∧
      ∀ found, (p.inquire q past.state).1 = .ok found → ∀ key,
        (p.inquire q past.state).2.cache.find? key =
          if key = q.key p.source.name then
            some ⟨q.keep found, (p.inquire q past.state).2.world.now⟩
          else past.state.cache.find? key := by
  have hunknown : p.known? q past.state = none := cached?_of_not_serves h hnot
  obtain ⟨hreply, hworld, hcache⟩ := inquire_of_unknown hunknown
  rw [← hreply, ← hworld] at hcache
  refine ⟨_, ?_, hreply, find?_keep hcache⟩
  rw [calls_of_unknown hunknown, hworld]
  rfl

end Inquiries

/-! ### The contract -/

/-- What the history says about the next request. -/
structure FollowsHistory (p : Provider σ) (past : Past σ) : Prop where
  /-- The cache keeps for every key what was last retrieved for it, stamped with the time of
  that. -/
  cache (key : CacheKey) : past.state.cache.find? key =
    (past.history.last? p.source.name key).map Retrieval.entry
  /-- A look-up of a name that the last retrieval serves replies that, makes no call, and changes
  nothing. -/
  get_served (name : String) (options : GetOptions) (last : Retrieval) :
    p.Serves past (p.singleKey name options) options.forceFetch options.maxAge last →
      ∃ value, last.content = .value value ∧
        (p.get name options past.state).1 = .ok value ∧
        p.exchanges (.get name options) past.state = [] ∧
        (p.get name options past.state).2.world = past.state.world ∧
        (p.get name options past.state).2.cache = past.state.cache
  /-- Any other look-up of a name makes one call and replies what that brings. The cache changes
  only under the key, and only if a value was fetched and decoded. -/
  get_fetched (name : String) (options : GetOptions) :
    (¬ ∃ last, p.Serves past (p.singleKey name options) options.forceFetch options.maxAge last) →
      ∃ outcome, p.exchanges (.get name options) past.state =
          [⟨.one name options.backend outcome, (p.get name options past.state).2.world.now⟩] ∧
        (p.get name options past.state).1 = outcome.bind (options.transform.apply name) ∧
        (∀ e, (p.get name options past.state).1 = .error e →
          (p.get name options past.state).2.cache = past.state.cache) ∧
        ∀ value, (p.get name options past.state).1 = .ok value → ∀ key,
          (p.get name options past.state).2.cache.find? key =
            if key = p.singleKey name options then
              some ⟨.value value, (p.get name options past.state).2.world.now⟩
            else past.state.cache.find? key
  /-- A look-up of a path that the last retrieval serves replies that, makes no call, and changes
  nothing. -/
  getMultiple_served (path : String) (options : GetOptions) (last : Retrieval) :
    p.Serves past (p.pathKey path options) options.forceFetch options.maxAge last →
      ∃ values, last.content = .values values ∧
        (p.getMultiple path options past.state).1 = .ok values ∧
        p.exchanges (.getMultiple path options) past.state = [] ∧
        (p.getMultiple path options past.state).2.world = past.state.world ∧
        (p.getMultiple path options past.state).2.cache = past.state.cache
  /-- Any other look-up of a path makes one call and replies what that brings. The cache changes
  only under the key, and only if values were fetched and decoded. -/
  getMultiple_fetched (path : String) (options : GetOptions) :
    (¬ ∃ last, p.Serves past (p.pathKey path options) options.forceFetch options.maxAge last) →
      ∃ outcome, p.exchanges (.getMultiple path options) past.state =
          [⟨.many path options.backend outcome,
            (p.getMultiple path options past.state).2.world.now⟩] ∧
        (p.getMultiple path options past.state).1 =
          outcome.bind (·.decode options.transform options.strict) ∧
        (∀ e, (p.getMultiple path options past.state).1 = .error e →
          (p.getMultiple path options past.state).2.cache = past.state.cache) ∧
        ∀ values, (p.getMultiple path options past.state).1 = .ok values → ∀ key,
          (p.getMultiple path options past.state).2.cache.find? key =
            if key = p.pathKey path options then
              some ⟨.values values, (p.getMultiple path options past.state).2.world.now⟩
            else past.state.cache.find? key
  /-- A name of a batch that the last retrieval serves has that as its value if the batch is
  successful. No call asks for the name, and the cache stays as it is under its key. -/
  getByName_served (parameters : List (String × Overrides)) (options : BatchOptions)
      (name : String) (overrides : Overrides) (last : Retrieval) :
    (requested parameters).get? name = some overrides →
    p.Serves past (p.singleKey name (options.forName overrides)) options.forceFetch
        (overrides.maxAge.or options.maxAge) last →
      ∃ value, last.content = .value value ∧
        (∀ result, (p.getByName parameters options past.state).1 = .ok result →
          result.values.get? name = some value) ∧
        (∀ exchange ∈ p.exchanges (.getByName parameters options) past.state,
          ∃ names backend outcome, exchange.answer = .bulk names backend outcome ∧
            name ∉ names) ∧
        (p.getByName parameters options past.state).2.cache.find?
            (p.singleKey name (options.forName overrides)) =
          past.state.cache.find? (p.singleKey name (options.forName overrides))

/-- No call of a batch asks for a name that the cache serves. -/
theorem not_asked_of_served {parameters : List (String × Overrides)} {options : BatchOptions}
    {s : State σ} {name : String} {overrides : Overrides} {value : ParameterValue}
    (hname : (requested parameters).get? name = some overrides)
    (hserved : p.served? options s (name, overrides) = some value) {exchange : Exchange}
    (hmem : exchange ∈ p.exchanges (.getByName parameters options) s) :
    ∃ names backend outcome, exchange.answer = .bulk names backend outcome ∧ name ∉ names := by
  by_cases hreserved : errorsKey ∈ (requested parameters).names
  · rw [exchanges_getByName_of_reserved hreserved] at hmem
    exact absurd hmem List.not_mem_nil
  · rw [exchanges_getByName hreserved] at hmem
    obtain ⟨answered, hanswered, rfl⟩ := List.mem_map.mp hmem
    have hcall := (p.answered_prefix parameters options s).subset (List.mem_map_of_mem hanswered)
    refine ⟨_, _, _, rfl, fun hasked => ?_⟩
    obtain ⟨pending, hpending, hsame⟩ := List.mem_map.mp hasked
    exact name_ne_of_served hname hserved hcall hpending hsame

/-- **A provider refines its history.** After every run, the last retrieval in the history decides
the next request: it is the reply if it is fresh and the cache is not to be passed over, without any
call, and otherwise the source is asked once and only what it brings under the key is new. -/
theorem run_followsHistory (p : Provider σ) (world : World σ) (steps : List (Step σ)) :
    p.FollowsHistory (p.run world steps) := by
  have hfaithful := p.run_faithful world steps
  generalize p.run world steps = past at hfaithful ⊢
  refine ⟨hfaithful, ?_, ?_, ?_, ?_, ?_⟩
  · intro name options last hserves
    rw [get_eq_inquire, exchanges_get]
    exact inquire_of_serves (Request.Poses.ofName name options) hfaithful hserves
  · intro name options hnot
    rw [get_eq_inquire, exchanges_get]
    exact inquire_of_not_serves hfaithful hnot
  · intro path options last hserves
    rw [getMultiple_eq_inquire, p.exchanges_getMultiple .byName]
    exact inquire_of_serves (Request.Poses.ofPath path options) hfaithful hserves
  · intro path options hnot
    rw [getMultiple_eq_inquire, p.exchanges_getMultiple .byName]
    exact inquire_of_not_serves hfaithful hnot
  · intro parameters options name overrides last hname hserves
    have hsingle : p.Serves past (p.singleKey name (options.forName overrides))
      (options.forName overrides).forceFetch (options.forName overrides).maxAge last := hserves
    obtain ⟨value, hvalue, hcached⟩ :=
      known?_of_serves (Request.Poses.ofName name (options.forName overrides)) hfaithful hsingle
    have hserved : p.served? options past.state (name, overrides) = some value := hcached
    refine ⟨value, hvalue, fun result hok => ?_, fun exchange hmem => ?_, ?_⟩
    · rw [eq_collected_of_ok hok, collected_value_iff]
      exact mem_outcomes_of_served hname hserved
    · exact not_asked_of_served hname hserved hmem
    · exact find?_getByName_of_served hname hserved

end Provider

end CachedParameters
