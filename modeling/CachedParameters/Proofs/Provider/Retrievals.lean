import CachedParameters.Proofs.Batch.Modes

/-!
# What a request retrieves

Every answer of the source is an attempt to retrieve something: it fails, or what it brought is
decoded and belongs under a key. `Request.retrievals` tells, from the calls that were seen of a
request, what was retrieved, under which key and when. The cache after a request is the cache before
it with the retrievals put in, and nothing else: this is the one step lemma that the history of a
provider needs. A request for a name or a path is one inquiry, `Request.Poses`, so what is said of
these two is said of inquiries.

## Main results

- `Provider.serve_cache`: the cache keeps what a request retrieves, and nothing else.
- `Request.made_of_mem_retrievals`: a retrieval is the value of a name or the decoded listing of a
  path.
- `Request.Poses.serve_cache`: what a request that is one inquiry leaves in the cache.
-/

namespace CachedParameters

open Batch

/-- Something that was fetched and decoded, the key that it belongs under, and when it was
fetched. -/
structure Retrieval where
  key : CacheKey
  content : Cached
  time : Instant

/-- What the cache keeps of a retrieval. -/
def Retrieval.entry (retrieval : Retrieval) : CacheEntry := ⟨retrieval.content, retrieval.time⟩

/-- Keeps a retrieval under its key, stamped with the time at which it was made. -/
def Cache.retain (cache : Cache) (retrieval : Retrieval) : Cache :=
  cache.insert retrieval.key retrieval.entry

/-- What the answer to a bulk call says about a name, if anything. -/
def answerFor (outcome : Except Error BulkFetch) (name : String) :
    Option (Except Error RawValue) :=
  match outcome with
  | .error e => some (.error e)
  | .ok bulk => (bulk.values.get? name).map .ok

namespace Request

/-- The attempt to retrieve the value of a name. -/
def attempt (source name : String) (options : GetOptions) (time : Instant)
    (outcome : Except Error RawValue) : Except Error Retrieval :=
  (outcome.bind (options.transform.apply name)).map fun value =>
    ⟨.single source name (options.transform.resolve name) options.backend, .value value, time⟩

/-- The attempts that one call amounts to, in order. -/
def attempts (source : String) (request : Request) (exchange : Exchange) :
    List (Except Error Retrieval) :=
  match request, exchange.answer with
  | .get name options, .one _ _ outcome => [attempt source name options exchange.time outcome]
  | .getMultiple path options, .many _ _ outcome =>
    [(outcome.bind (·.decode options.transform options.strict)).map fun values =>
      ⟨.multiple source path options.transform options.strict options.backend, .values values,
        exchange.time⟩]
  | .getByName parameters options, .bulk names _ outcome =>
    names.filterMap fun name =>
      (answerFor outcome name).map
        (attempt source name (options.forName (overridesOf parameters name)) exchange.time)
  | _, _ => []

/-- Whether a request ends with the first failed attempt. -/
def endsEarly : Request → Bool
  | .getByName _ options => options.strict
  | .get .. | .getMultiple .. | .clear => false

/-- The successes among the attempts; if `strict`, up to the first one that failed. -/
def successes (strict : Bool) (attempts : List (Except Error Retrieval)) : List Retrieval :=
  (if strict then attempts.takeWhile (·.toOption.isSome) else attempts).filterMap Except.toOption

/-- What a request retrieves, from the calls that were seen of it. -/
def retrievals (source : String) (request : Request) (exchanges : List Exchange) :
    List Retrieval :=
  successes request.endsEarly (exchanges.flatMap (request.attempts source))

end Request

/-! ### What stands under a key -/

/-- Under the key of a name stands a value, under that of a path stand values. -/
def Retrieval.WellKept (retrieval : Retrieval) : Prop :=
  match retrieval.key.lookup with
  | .single => ∃ value, retrieval.content = .value value
  | .multiple _ => ∃ values, retrieval.content = .values values

theorem mem_of_mem_successes {strict : Bool} {attempts : List (Except Error Retrieval)}
    {retrieval : Retrieval} (h : retrieval ∈ Request.successes strict attempts) :
    .ok retrieval ∈ attempts := by
  obtain ⟨outcome, hmem, hok⟩ := List.mem_filterMap.mp h
  have hattempt : outcome ∈ attempts := by
    cases strict with
    | false => exact hmem
    | true => exact (List.takeWhile_sublist _).subset hmem
  cases outcome with
  | error e => exact absurd hok (Option.some_ne_none retrieval).symm
  | ok found => exact Option.some.inj hok ▸ hattempt

theorem exists_of_bind_eq_ok {α β : Type} {outcome : Except Error α} {f : α → Except Error β}
    {b : β} (h : outcome.bind f = .ok b) : ∃ a, outcome = .ok a ∧ f a = .ok b := by
  cases outcome with
  | error e => cases h
  | ok a => exact ⟨a, rfl, h⟩

/-- An attempt succeeds with what was brought and decoded. -/
theorem exists_of_bind_map_eq_ok {α β : Type} {outcome : Except Error α} {f : α → Except Error β}
    {g : β → Retrieval} {retrieval : Retrieval}
    (h : (outcome.bind f).map g = .ok retrieval) :
    ∃ a b, outcome = .ok a ∧ f a = .ok b ∧ retrieval = g b := by
  cases hbind : outcome.bind f with
  | error e =>
      rw [hbind] at h
      cases h
  | ok b =>
      rw [hbind] at h
      obtain ⟨a, houtcome, hf⟩ := exists_of_bind_eq_ok hbind
      exact ⟨a, b, houtcome, hf, (Except.ok.inj h).symm⟩

/-- What can be retrieved: the value of a name, or the values that a listing under a path is decoded
to. Nothing else comes into a cache. -/
inductive Retrieval.Made (source : String) : Retrieval → Prop
  | value (name : String) (transform : Transform) (options : BackendOptions)
      (value : ParameterValue) (time : Instant) :
      Made source ⟨.single source name transform options, .value value, time⟩
  | values (path : String) (transform : Transform) (strict : Bool) (options : BackendOptions)
      {listing : Listing} {values : PathValues} (time : Instant)
      (h : listing.decode transform strict = .ok values) :
      Made source ⟨.multiple source path transform strict options, .values values, time⟩

/-- Whatever the request and its calls, a retrieval of it is made so. What holds of every retrieval
can be shown for the two kinds of them. -/
theorem Request.made_of_mem_retrievals {source : String} {request : Request}
    {exchanges : List Exchange} {retrieval : Retrieval}
    (h : retrieval ∈ request.retrievals source exchanges) : retrieval.Made source := by
  obtain ⟨exchange, -, hmem⟩ := List.mem_flatMap.mp (mem_of_mem_successes h)
  rw [attempts.eq_def] at hmem
  split at hmem
  · obtain ⟨raw, value, -, -, rfl⟩ := exists_of_bind_map_eq_ok (List.mem_singleton.mp hmem).symm
    exact .value ..
  · obtain ⟨listing, values, -, hdecode, rfl⟩ :=
      exists_of_bind_map_eq_ok (List.mem_singleton.mp hmem).symm
    exact .values _ _ _ _ _ hdecode
  · obtain ⟨name, -, hname⟩ := List.mem_filterMap.mp hmem
    obtain ⟨outcome, -, hattempt⟩ := Option.map_eq_some_iff.mp hname
    obtain ⟨raw, value, -, -, rfl⟩ := exists_of_bind_map_eq_ok hattempt
    exact .value ..
  · exact absurd hmem List.not_mem_nil

/-- Under the key of a name a request retrieves a value, and under that of a path values. -/
theorem Retrieval.Made.wellKept {source : String} {retrieval : Retrieval}
    (h : retrieval.Made source) : retrieval.WellKept := by
  cases h with
  | value name transform options value time => exact ⟨value, rfl⟩
  | values path transform strict options time hdecode => exact ⟨_, rfl⟩

/-! ### Names of a batch -/

/-- The attempt that a fate stands for; a name that was left out was not attempted. -/
def Batch.Settled.attempt? (settled : Settled) : Option (Except Error Retrieval) :=
  match settled.fate with
  | .found value => some (.ok ⟨settled.pending.key, .value value, settled.time⟩)
  | .missing => none
  | .failed e => some (.error e)

/-- A strict batch stops at a fate that is a failure, and goes on behind any other. -/
theorem upToFailure_cons (strict : Bool) (x : Settled) (rest : List Settled) :
    upToFailure strict (x :: rest) =
      if strict && x.fate.error?.isSome then [] else x :: upToFailure strict rest := by
  cases strict with
  | false => rfl
  | true =>
      simp only [upToFailure, if_true, List.takeWhile_cons, Bool.true_and]
      cases x.fate.error? <;> rfl

theorem successes_ok (strict : Bool) (retrieval : Retrieval)
    (rest : List (Except Error Retrieval)) :
    Request.successes strict (.ok retrieval :: rest) =
      retrieval :: Request.successes strict rest := by
  cases strict <;> rfl

theorem successes_error (strict : Bool) (e : Error) (rest : List (Except Error Retrieval)) :
    Request.successes strict (.error e :: rest) =
      if strict then [] else Request.successes strict rest := by
  cases strict <;> rfl

/-- Settling names keeps what their fates retrieve, up to the first failure in strict mode. So the
cache behind a batch can be told without the batch. -/
theorem foldl_settle_eq (strict : Bool) (settled : List Settled) (cache : Cache) :
    (upToFailure strict settled).foldl Cache.settle cache =
      (Request.successes strict (settled.filterMap (·.attempt?))).foldl Cache.retain cache := by
  induction settled generalizing cache with
  | nil => cases strict <;> rfl
  | cons x rest ih =>
      rw [upToFailure_cons, List.filterMap_cons, Settled.attempt?]
      cases hfate : x.fate with
      | found value =>
          dsimp only
          rw [Fate.error?, Option.isSome_none, Bool.and_false, if_neg Bool.false_ne_true,
            List.foldl_cons, ih, successes_ok, List.foldl_cons, Cache.settle, hfate]
          rfl
      | missing =>
          dsimp only
          rw [Fate.error?, Option.isSome_none, Bool.and_false, if_neg Bool.false_ne_true,
            List.foldl_cons, ih, Cache.settle, hfate]
      | failed e =>
          dsimp only
          rw [successes_error]
          cases strict with
          | true => rfl
          | false =>
              rw [Bool.false_and, if_neg Bool.false_ne_true, if_neg Bool.false_ne_true,
                List.foldl_cons, ih, Cache.settle, hfate]

/-! ### Requests that are inquiries -/

/-- What the cache keeps of an attempt is its success, if it is one. -/
theorem keep_eq (cache : Cache) (key : CacheKey) (time : Instant)
    (outcome : Except Error Cached) :
    cache.keep key time outcome =
      (Request.successes false [outcome.map fun content => ⟨key, content, time⟩]).foldl
        Cache.retain cache := by
  cases outcome <;> rfl

/-- A request that is one inquiry: it is served by making the inquiry and is told what that yields
by `reply`, and the call of the inquiry is one attempt, whose success is kept under its key. Under
that key stands nothing that the inquiry could not have yielded. -/
structure Request.Poses {ρ α : Type} (request : Request) (q : Inquiry ρ α)
    (reply : Except Error α → Reply) : Prop where
  serve {σ : Type} (p : Provider σ) (s : Provider.State σ) :
    p.serve request s = (p.inquire q s).map reply id
  endsEarly : request.endsEarly = false
  attempts (source : String) (outcome : Except Error ρ) (time : Instant) :
    request.attempts source ⟨q.answer outcome, time⟩ =
      [(outcome.bind q.decode).map fun found => ⟨q.key source, q.keep found, time⟩]
  kept {source : String} {retrieval : Retrieval} :
    retrieval.WellKept → retrieval.key = q.key source → ∃ found, retrieval.content = q.keep found

theorem Request.Poses.ofName (name : String) (options : GetOptions) :
    (Request.get name options).Poses (.ofName name options) .value where
  serve p s := congrArg (Prod.map Reply.value id) (p.get_eq_inquire name options s)
  endsEarly := rfl
  attempts _ _ _ := rfl
  kept hkept hkey := by
    rw [Retrieval.WellKept, hkey] at hkept
    exact hkept

theorem Request.Poses.ofPath (path : String) (options : GetOptions) :
    (Request.getMultiple path options).Poses (.ofPath .byName path options) .values where
  serve p s := congrArg (Prod.map Reply.values id) (p.getMultiple_eq_inquire path options s)
  endsEarly := rfl
  attempts _ _ _ := rfl
  kept hkept hkey := by
    rw [Retrieval.WellKept, hkey] at hkept
    exact hkept

namespace Request.Poses

variable {σ ρ α : Type} {request : Request} {q : Inquiry ρ α} {reply : Except Error α → Reply}

theorem exchanges (h : request.Poses q reply) (p : Provider σ) (s : Provider.State σ) :
    p.exchanges request s = p.calls q s := by
  rw [Provider.exchanges, h.serve, Provider.inquire_watch]
  rfl

/-- It retrieves nothing if the cache serves the inquiry. -/
theorem retrievals_of_known (h : request.Poses q reply) {p : Provider σ} {s : Provider.State σ}
    {found : α} (hknown : p.known? q s = some found) :
    request.retrievals p.source.name (p.exchanges request s) = [] := by
  rw [h.exchanges, Provider.calls_of_known hknown, Request.retrievals, h.endsEarly]
  rfl

/-- Otherwise it retrieves what the inquiry brings, if that is successful. -/
theorem retrievals_of_unknown (h : request.Poses q reply) {p : Provider σ} {s : Provider.State σ}
    (hunknown : p.known? q s = none) :
    request.retrievals p.source.name (p.exchanges request s) =
      Request.successes false [(p.bring q s.world).1.map fun found =>
        ⟨q.key p.source.name, q.keep found, (p.bring q s.world).2.now⟩] := by
  rw [h.exchanges, Provider.calls_of_unknown hunknown, Request.retrievals, h.endsEarly,
    List.flatMap_singleton, h.attempts]
  rfl

/-- The cache keeps what it retrieves, and nothing else. -/
theorem serve_cache (h : request.Poses q reply) (p : Provider σ) (s : Provider.State σ) :
    (p.serve request s).2.cache =
      (request.retrievals p.source.name (p.exchanges request s)).foldl Cache.retain s.cache := by
  rw [h.serve]
  cases hknown : p.known? q s with
  | some found =>
      rw [h.retrievals_of_known hknown, Provider.inquire_of_known hknown]
      rfl
  | none =>
      rw [h.retrievals_of_unknown hknown]
      refine (Provider.inquire_of_unknown hknown).2.2.trans ?_
      rw [keep_eq]
      cases (p.bring q s.world).1 <;> rfl

end Request.Poses

namespace Provider

variable {σ : Type}

/-- The attempts that an answered call amounts to are those of its fates. -/
theorem attempts_exchange (p : Provider σ) (parameters : List (String × Overrides))
    (options : BatchOptions) (s : State σ) {answered : Answered}
    (hmem : answered ∈ p.answered parameters options s) :
    (Request.getByName parameters options).attempts p.source.name answered.exchange =
      answered.settled.filterMap (·.attempt?) := by
  have hcall : answered.call ∈ p.planned parameters options s :=
    (p.answered_prefix parameters options s).subset (List.mem_map_of_mem hmem)
  simp only [Request.attempts, Answered.exchange, BulkCall.names, Answered.settled,
    List.filterMap_map]
  refine List.filterMap_congr fun pending hpending => ?_
  obtain ⟨⟨name, overrides⟩, hentry, hdeferred⟩ :=
    p.exists_of_mem_planned parameters options s hcall hpending
  have hget := Dict.mem_entries_iff.mp (List.mem_of_mem_filter hentry)
  obtain rfl : _ = pending := congrArg Deferred.pending hdeferred
  have hoverrides : overridesOf parameters name = overrides := by
    rw [overridesOf, hget, Option.getD_some]
  simp only [Function.comp_apply, deferredOf, hoverrides, Settled.attempt?, Pending.fate,
    answerFor]
  cases answered.outcome with
  | error e => rfl
  | ok bulk =>
      dsimp only
      cases bulk.values.get? name with
      | none => rfl
      | some raw =>
          simp only [Transform.apply_resolve, Option.map_some, Request.attempt, Except.bind]
          cases (options.forName overrides).transform.apply name raw <;> rfl

/-- The attempts that a batch makes are those of the fates of its names. -/
theorem flatMap_attempts (p : Provider σ) (parameters : List (String × Overrides))
    (options : BatchOptions) (s : State σ) :
    ((p.answered parameters options s).map (·.exchange)).flatMap
        ((Request.getByName parameters options).attempts p.source.name) =
      (p.settled parameters options s).filterMap (·.attempt?) := by
  rw [settled, List.filterMap_flatMap, List.flatMap_map]
  exact List.flatMap_congr fun answered hmem => p.attempts_exchange parameters options s hmem

/-! ### The step lemma -/

/-- **The cache keeps what a request retrieves**, and nothing else. All that is said of the cache
after a run goes through this lemma. -/
theorem serve_cache (p : Provider σ) {request : Request} (h : request ≠ .clear) (s : State σ) :
    (p.serve request s).2.cache =
      (request.retrievals p.source.name (p.exchanges request s)).foldl Cache.retain s.cache := by
  cases request with
  | get name options => exact (Request.Poses.ofName name options).serve_cache p s
  | getMultiple path options => exact (Request.Poses.ofPath path options).serve_cache p s
  | getByName parameters options =>
      by_cases hreserved : errorsKey ∈ (requested parameters).names
      · rw [exchanges_getByName_of_reserved hreserved, serve, getByName_of_reserved hreserved]
        simp only [Request.retrievals, Request.successes, List.flatMap_nil, List.takeWhile_nil,
          ite_self]
        rfl
      · rw [exchanges_getByName hreserved, serve]
        refine (getByName_eq hreserved).2.2.trans ?_
        rw [foldl_settle_eq, Request.retrievals, flatMap_attempts]
        rfl
  | clear => exact absurd rfl h

end Provider

end CachedParameters
