import CachedParameters.Proofs.Batch.Intake

/-!
# What the answers to a plan amount to

Every answer to a bulk call decides the **fate** of the names that were asked for: a value was
found, the answer does not have the name, or the call or the decoding failed. The outcome of a batch
and what it stores follow from the fates alone, in the order of the plan. A strict batch makes no
call after the first one that shows a fault, and stores nothing behind the first fate that is one.

## Main results

- `Provider.settle_eq`: what becomes of the names of one answered call.
- `Provider.runCall_eq`: what becomes of one call.
- `Provider.runPlan_eq`: what becomes of a plan.
- `Provider.runPlan_watch`: the calls that are seen are those that were answered.
- `Provider.answers_strict`: a strict batch makes the calls of a graceful one up to the first fault.
-/

namespace CachedParameters

namespace Batch

/-! ### Fates -/

/-- What became of a name that was asked for: its value was found and decoded, or the answer does
not have it, or the call failed or the value could not be decoded. Only a failure can end a strict
batch. -/
inductive Fate where
  | found (value : ParameterValue)
  | missing
  | failed (error : Error)

/-- The failure of a name, if there was one. -/
def Fate.error? : Fate → Option Error
  | .failed e => some e
  | .found _ | .missing => none

/-- The fate of a name under the answer of a bulk call. -/
def Pending.fate (pending : Pending) : Except Error BulkFetch → Fate
  | .error e => .failed e
  | .ok bulk =>
    match bulk.values.get? pending.name with
    | none => .missing
    | some raw =>
      match pending.transform.apply pending.name raw with
      | .ok value => .found value
      | .error e => .failed e

/-- A name that was asked for, its fate, and the time of the answer, which is what a found value is
kept with. -/
structure Settled where
  pending : Pending
  fate : Fate
  time : Instant

/-- A bulk call that was made, with its answer and the time when that came. -/
structure Answered where
  call : BulkCall
  outcome : Except Error BulkFetch
  time : Instant

namespace Answered

/-- The fates of the names of a call. -/
def settled (answered : Answered) : List Settled :=
  answered.call.lookups.map fun pending =>
    ⟨pending, pending.fate answered.outcome, answered.time⟩

/-- The first failure that a call shows: its own, or that of the first name that could not be
decoded. -/
def fault? (answered : Answered) : Option Error :=
  match answered.outcome with
  | .error e => some e
  | .ok _ => answered.settled.findSome? (·.fate.error?)

/-- The call as its source sees it. -/
def exchange (answered : Answered) : Exchange :=
  ⟨.bulk answered.call.names answered.call.options answered.outcome, answered.time⟩

/-- A batch goes on behind a call, or is strict and ends with a fault of the call. -/
theorem goesOn_or_ends (answered : Answered) (strict : Bool) :
    (strict = true → answered.fault? = none) ∨
      strict = true ∧ ∃ e, answered.fault? = some e := by
  cases hfault : answered.fault? with
  | none => exact .inl fun _ => rfl
  | some e =>
      cases strict with
      | false => exact .inl fun h => Bool.noConfusion h
      | true => exact .inr ⟨rfl, e, rfl⟩

end Answered

/-- The fates that a batch gets to see: a strict one stops at the first failure. -/
def upToFailure (strict : Bool) (settled : List Settled) : List Settled :=
  if strict then settled.takeWhile fun x => x.fate.error?.isNone else settled

/-- The outcome of a batch that came to a result, or met a fault. -/
def conclude (strict : Bool) (fault? : Option Error) (result : BatchResult) :
    Except Error BatchResult :=
  match fault? with
  | none => .ok result
  | some e => if strict then .error e else .ok result

/-- A graceful batch comes to a result whatever it meets. -/
@[simp] theorem conclude_false (fault? : Option Error) (result : BatchResult) :
    conclude false fault? result = .ok result := by
  cases fault? <;> rfl

/-- A batch comes to its result unless it meets a fault that ends it. -/
theorem conclude_of_none {strict : Bool} {fault? : Option Error} {result : BatchResult}
    (h : strict = true → fault? = none) : conclude strict fault? result = .ok result := by
  cases strict with
  | false => exact conclude_false fault? result
  | true => rw [h rfl, conclude]

end Batch

open Batch

/-- Records the fate of a name: the value that it has, or that it failed. -/
def BatchResult.settle (result : BatchResult) (settled : Settled) : BatchResult :=
  match settled.fate with
  | .found value => result.addValue settled.pending.name value
  | .missing | .failed _ => result.addError settled.pending.name

/-- Keeps the value of a name, if it was found. -/
def Cache.settle (cache : Cache) (settled : Settled) : Cache :=
  match settled.fate with
  | .found value => cache.insert settled.pending.key ⟨.value value, settled.time⟩
  | .missing | .failed _ => cache

namespace Provider

variable {σ : Type}

/-! ### One call -/

/-- The fates of names under an answer that came now. -/
def settledNow (s : State σ) (outcome : Except Error BulkFetch) (lookups : List Pending) :
    List Settled :=
  lookups.map fun pending => ⟨pending, pending.fate outcome, s.world.now⟩

/-- The names of an answered call are settled one after another, up to the first failure if
`strict`. -/
theorem settle_eq (p : Provider σ) (strict : Bool) (bulk : BulkFetch) (result : BatchResult)
    (lookups : List Pending) (s : State σ) :
    (p.settle strict bulk.values result lookups s).1 =
        conclude strict ((settledNow s (.ok bulk) lookups).findSome? (·.fate.error?))
          ((settledNow s (.ok bulk) lookups).foldl BatchResult.settle result) ∧
      (p.settle strict bulk.values result lookups s).2.world = s.world ∧
      (p.settle strict bulk.values result lookups s).2.cache =
        (upToFailure strict (settledNow s (.ok bulk) lookups)).foldl Cache.settle s.cache := by
  induction lookups generalizing result s with
  | nil => cases strict <;> exact ⟨rfl, rfl, rfl⟩
  | cons pending rest ih =>
      rw [Provider.settle]
      cases hget : bulk.values.get? pending.name with
      | none =>
          have hfate : pending.fate (.ok bulk) = .missing := by rw [Pending.fate, hget]
          obtain ⟨houtcome, hworld, hcache⟩ := ih (result.addError pending.name) s
          simp only [settledNow, List.map_cons, hfate, List.findSome?_cons, Fate.error?,
            List.foldl_cons]
          refine ⟨houtcome, hworld, hcache.trans ?_⟩
          cases strict <;> rfl
      | some raw =>
          cases happly : pending.transform.apply pending.name raw with
          | ok value =>
              have hfate : pending.fate (.ok bulk) = .found value := by
                simp only [Pending.fate, hget, happly]
              obtain ⟨houtcome, hworld, hcache⟩ :=
                ih (result.addValue pending.name value) (s.store pending.key (.value value))
              simp only [settledNow, List.map_cons, hfate, List.findSome?_cons, Fate.error?,
                List.foldl_cons, happly]
              refine ⟨houtcome, hworld, hcache.trans ?_⟩
              cases strict <;> rfl
          | error e =>
              have hfate : pending.fate (.ok bulk) = .failed e := by
                simp only [Pending.fate, hget, happly]
              obtain ⟨houtcome, hworld, hcache⟩ := ih (result.addError pending.name)
                (p.record .getByName .transformFailed pending.name s)
              simp only [settledNow, List.map_cons, hfate, List.findSome?_cons, Fate.error?,
                List.foldl_cons, happly]
              cases strict with
              | true => exact ⟨rfl, rfl, rfl⟩
              | false =>
                  refine ⟨houtcome.trans ?_, hworld, hcache⟩
                  rw [conclude_false, conclude_false]
                  rfl

/-- Settling names makes no call, so being watched changes nothing of it. -/
theorem settle_watch (p : Provider σ) (strict : Bool) (found : Listing) (result : BatchResult)
    (lookups : List Pending) (seen : List Exchange) (s : State σ) :
    p.watched.settle strict found result lookups (s.watch seen) =
      ((p.settle strict found result lookups s).1,
        (p.settle strict found result lookups s).2.watch seen) := by
  induction lookups generalizing result s with
  | nil => rfl
  | cons pending rest ih =>
      rw [Provider.settle, Provider.settle]
      cases found.get? pending.name with
      | none => exact ih _ _
      | some raw =>
          dsimp only
          cases pending.transform.apply pending.name raw with
          | ok value =>
              exact ih (result.addValue pending.name value) (s.store pending.key (.value value))
          | error e =>
              cases strict with
              | true => rfl
              | false =>
                  exact ih (result.addError pending.name)
                    (p.record .getByName .transformFailed pending.name s)

/-! ### A plan -/

/-- Makes the calls of a plan and collects the answers. A strict batch makes no call after one that
shows a fault. -/
def answers (p : Provider σ) (strict : Bool) : List BulkCall → World σ → List Answered × World σ
  | [], world => ([], world)
  | call :: rest, world =>
    let (outcome, after) := (p.source.fetchBulk call.names call.options).quiet world
    let answered : Answered := ⟨call, outcome, after.now⟩
    if strict && answered.fault?.isSome then ([answered], after)
    else
      let (more, last) := p.answers strict rest after
      (answered :: more, last)

/-- The names of a call that failed are recorded as failed. -/
theorem foldl_addError (call : BulkCall) (e : Error) (time : Instant) (result : BatchResult) :
    call.names.foldl BatchResult.addError result =
      (Answered.settled ⟨call, .error e, time⟩).foldl BatchResult.settle result := by
  rw [BulkCall.names, Answered.settled, List.foldl_map, List.foldl_map]
  rfl

theorem foldl_settle_of_error (call : BulkCall) (e : Error) (time : Instant) (cache : Cache) :
    (Answered.settled ⟨call, .error e, time⟩).foldl Cache.settle cache = cache := by
  rw [Answered.settled, List.foldl_map]
  exact List.foldl_fixed' (fun _ => rfl) call.lookups

theorem upToFailure_of_error (call : BulkCall) (e : Error) (time : Instant) :
    upToFailure true (Answered.settled ⟨call, .error e, time⟩) = [] := by
  rw [upToFailure, if_pos rfl, Answered.settled]
  cases call.lookups <;> rfl

/-- A call without a fault ends no batch. -/
theorem upToFailure_append {strict : Bool} {answered : Answered} (rest : List Settled)
    (h : strict = true → answered.fault? = none) :
    upToFailure strict (answered.settled ++ rest) =
      answered.settled ++ upToFailure strict rest := by
  cases strict with
  | false => rfl
  | true =>
      have hnone : ∀ x ∈ answered.settled, x.fate.error?.isNone = true := by
        intro x hx
        have hfault := h rfl
        rw [Answered.fault?] at hfault
        split at hfault
        · exact absurd hfault (Option.some_ne_none _)
        · exact Option.isNone_iff_eq_none.mpr (List.findSome?_eq_none_iff.mp hfault x hx)
      exact List.takeWhile_append_of_pos hnone

/-- All the names of a call without a fault are seen. -/
theorem upToFailure_settled {strict : Bool} {answered : Answered}
    (h : strict = true → answered.fault? = none) :
    upToFailure strict answered.settled = answered.settled := by
  have hnil : upToFailure strict [] = [] := by cases strict <;> rfl
  have hall := upToFailure_append [] h
  rwa [hnil, List.append_nil] at hall

/-- A fault is passed over by a graceful batch. -/
theorem conclude_cons {strict : Bool} {answered : Answered} (more : List Answered)
    (result : BatchResult) (h : strict = true → answered.fault? = none) :
    conclude strict ((answered :: more).findSome? (·.fault?)) result =
      conclude strict (more.findSome? (·.fault?)) result := by
  cases strict with
  | false => rw [conclude_false, conclude_false]
  | true => rw [List.findSome?_cons, h rfl]

/-- The calls behind one that did not end the batch. -/
theorem answers_cons {p : Provider σ} {strict : Bool} {call : BulkCall} {rest : List BulkCall}
    {world after : World σ} {outcome : Except Error BulkFetch}
    (hfetch : (p.source.fetchBulk call.names call.options).quiet world = (outcome, after))
    (h : strict = true → Answered.fault? ⟨call, outcome, after.now⟩ = none) :
    p.answers strict (call :: rest) world =
      (⟨call, outcome, after.now⟩ :: (p.answers strict rest after).1,
        (p.answers strict rest after).2) := by
  simp only [answers, hfetch]
  cases strict with
  | false => rfl
  | true =>
      rw [h rfl]
      rfl

/-- A call with a fault is the last one of a strict batch. The world is left as the call left it,
since nothing that was planned behind it is carried out. -/
theorem answers_of_fault {p : Provider σ} {call : BulkCall} {rest : List BulkCall}
    {world after : World σ} {outcome : Except Error BulkFetch} {e : Error}
    (hfetch : (p.source.fetchBulk call.names call.options).quiet world = (outcome, after))
    (h : Answered.fault? ⟨call, outcome, after.now⟩ = some e) :
    p.answers true (call :: rest) world = ([⟨call, outcome, after.now⟩], after) := by
  simp only [answers, hfetch, h]
  rfl

/-- What one call of a plan makes of a batch. -/
def runCall (p : Provider σ) (strict : Bool) (result : BatchResult) (call : BulkCall)
    (s : State σ) : Except Error BatchResult × State σ :=
  match p.fetch .getByName (",".intercalate call.names)
      (p.source.fetchBulk call.names call.options) s with
  | (.error e, s) =>
    (if strict then .error e else .ok (call.names.foldl BatchResult.addError result), s)
  | (.ok bulk, s) => p.settle strict bulk.values result call.lookups s

/-- A plan is its first call and, unless that ends the batch, the plan behind it. -/
theorem runPlan_cons (p : Provider σ) (strict : Bool) (result : BatchResult) (call : BulkCall)
    (rest : List BulkCall) (s : State σ) :
    p.runPlan strict result (call :: rest) s =
      match p.runCall strict result call s with
      | (.error e, s) => (.error e, s)
      | (.ok result, s) => p.runPlan strict result rest s := by
  rw [runPlan, runCall]
  generalize p.fetch .getByName (",".intercalate call.names)
    (p.source.fetchBulk call.names call.options) s = fetched
  obtain ⟨outcome, after⟩ := fetched
  cases outcome with
  | ok bulk => rfl
  | error e => cases strict <;> rfl

/-- What becomes of one call follows from the fates of its names and from whether the call itself
failed. This is the step that the plan of a batch repeats. -/
theorem runCall_eq (p : Provider σ) (strict : Bool) (result : BatchResult) {call : BulkCall}
    {s : State σ} {outcome : Except Error BulkFetch} {world : World σ}
    (hquiet : (p.source.fetchBulk call.names call.options).quiet s.world = (outcome, world)) :
    (p.runCall strict result call s).1 =
        conclude strict (Answered.fault? ⟨call, outcome, world.now⟩)
          ((Answered.settled ⟨call, outcome, world.now⟩).foldl BatchResult.settle result) ∧
      (p.runCall strict result call s).2.world = world ∧
      (p.runCall strict result call s).2.cache =
        (upToFailure strict (Answered.settled ⟨call, outcome, world.now⟩)).foldl Cache.settle
          s.cache := by
  obtain ⟨after, hfetch, hworld, hcache⟩ := p.fetch_eq .getByName
    (",".intercalate call.names) (p.source.fetchBulk call.names call.options) s
  rw [hquiet] at hfetch hworld
  dsimp only at hfetch hworld
  subst hworld
  rw [runCall, hfetch, ← hcache]
  cases outcome with
  | ok bulk => exact p.settle_eq strict bulk result call.lookups after
  | error e =>
      rw [foldl_addError call e after.world.now]
      cases strict with
      | true =>
          rw [upToFailure_of_error]
          exact ⟨rfl, rfl, rfl⟩
      | false => exact ⟨rfl, rfl, (foldl_settle_of_error call e after.world.now after.cache).symm⟩

/-- One call is seen with its answer. -/
theorem runCall_watch (p : Provider σ) (strict : Bool) (result : BatchResult) (seen : List Exchange)
    {call : BulkCall} {s : State σ} {outcome : Except Error BulkFetch} {world : World σ}
    (hquiet : (p.source.fetchBulk call.names call.options).quiet s.world = (outcome, world)) :
    p.watched.runCall strict result call (s.watch seen) =
      ((p.runCall strict result call s).1,
        (p.runCall strict result call s).2.watch
          (seen ++ [Answered.exchange ⟨call, outcome, world.now⟩])) := by
  have hwatch := p.fetch_watch .getByName (",".intercalate call.names)
    (.bulk call.names call.options) (p.source.fetchBulk call.names call.options) seen s
  have hsource : p.watched.source.fetchBulk call.names call.options =
    (p.source.fetchBulk call.names call.options).watched (.bulk call.names call.options) := rfl
  rw [runCall, runCall, hsource, hwatch, hquiet]
  generalize p.fetch .getByName (",".intercalate call.names)
    (p.source.fetchBulk call.names call.options) s = fetched
  obtain ⟨reply, after⟩ := fetched
  cases reply with
  | ok bulk => exact p.settle_watch strict bulk.values result call.lookups _ after
  | error e => rfl

/-- **The calls of a plan are made in order**, and what becomes of the names follows from their
fates. A strict batch fails with the first fault of a call. -/
theorem runPlan_eq (p : Provider σ) (strict : Bool) (result : BatchResult)
    (calls : List BulkCall) (s : State σ) :
    (p.runPlan strict result calls s).1 =
        conclude strict ((p.answers strict calls s.world).1.findSome? (·.fault?))
          (((p.answers strict calls s.world).1.flatMap (·.settled)).foldl BatchResult.settle
            result) ∧
      (p.runPlan strict result calls s).2.world = (p.answers strict calls s.world).2 ∧
      (p.runPlan strict result calls s).2.cache =
        (upToFailure strict ((p.answers strict calls s.world).1.flatMap (·.settled))).foldl
          Cache.settle s.cache := by
  induction calls generalizing result s with
  | nil => cases strict <;> exact ⟨rfl, rfl, rfl⟩
  | cons call rest ih =>
      rcases hquiet : (p.source.fetchBulk call.names call.options).quiet s.world with
        ⟨outcome, world⟩
      obtain ⟨hreply, hworld, hcache⟩ := p.runCall_eq strict result hquiet
      rw [runPlan_cons]
      generalize p.runCall strict result call s = ran at hreply hworld hcache ⊢
      obtain ⟨reply, next⟩ := ran
      dsimp only at hreply hworld hcache
      rcases Answered.goesOn_or_ends ⟨call, outcome, world.now⟩ strict with hgo | ⟨rfl, e, he⟩
      · obtain ⟨houtcome, hlast, hstored⟩ := ih
          ((Answered.settled ⟨call, outcome, world.now⟩).foldl BatchResult.settle result) next
        rw [hworld] at houtcome hlast hstored
        rw [upToFailure_settled hgo] at hcache
        rw [hreply, conclude_of_none hgo, answers_cons hquiet hgo, List.flatMap_cons,
          List.foldl_append, conclude_cons _ _ hgo, upToFailure_append _ hgo, List.foldl_append,
          ← hcache]
        exact ⟨houtcome, hlast, hstored⟩
      · rw [hreply, answers_of_fault hquiet he, List.findSome?_singleton, List.flatMap_singleton,
          he]
        exact ⟨rfl, hworld, hcache⟩

/-- **The source sees the calls that were answered**, and being watched changes nothing. The
induction is on the calls of the plan; a strict batch leaves it with the first fault. -/
theorem runPlan_watch (p : Provider σ) (strict : Bool) (result : BatchResult)
    (calls : List BulkCall) (seen : List Exchange) (s : State σ) :
    p.watched.runPlan strict result calls (s.watch seen) =
      ((p.runPlan strict result calls s).1,
        (p.runPlan strict result calls s).2.watch
          (seen ++ (p.answers strict calls s.world).1.map (·.exchange))) := by
  induction calls generalizing result seen s with
  | nil =>
      rw [answers, List.map_nil, List.append_nil]
      rfl
  | cons call rest ih =>
      rcases hquiet : (p.source.fetchBulk call.names call.options).quiet s.world with
        ⟨outcome, world⟩
      obtain ⟨hreply, hworld, -⟩ := p.runCall_eq strict result hquiet
      rw [runPlan_cons, runPlan_cons, p.runCall_watch strict result seen hquiet]
      generalize p.runCall strict result call s = ran at hreply hworld ⊢
      obtain ⟨reply, next⟩ := ran
      dsimp only at hreply hworld ⊢
      rcases Answered.goesOn_or_ends ⟨call, outcome, world.now⟩ strict with hgo | ⟨rfl, e, he⟩
      · have hrest := ih
          ((Answered.settled ⟨call, outcome, world.now⟩).foldl BatchResult.settle result)
          (seen ++ [Answered.exchange ⟨call, outcome, world.now⟩]) next
        rw [hworld, List.append_assoc] at hrest
        rw [hreply, conclude_of_none hgo, answers_cons hquiet hgo, List.map_cons]
        exact hrest
      · rw [hreply, answers_of_fault hquiet he, he]
        rfl

/-! ### Strict and graceful batches -/

/-- A graceful batch makes all the calls of its plan, whatever comes of them. This is what a strict
batch is measured against: it makes a start of them. -/
theorem answers_calls (p : Provider σ) (calls : List BulkCall) (world : World σ) :
    (p.answers false calls world).1.map (·.call) = calls := by
  induction calls generalizing world with
  | nil => rfl
  | cons call rest ih =>
      rw [answers_cons rfl (fun h => Bool.noConfusion h), List.map_cons, ih]

/-- The calls that are made are the first ones of the plan. -/
theorem answers_prefix (p : Provider σ) (strict : Bool) (calls : List BulkCall)
    (world : World σ) : (p.answers strict calls world).1.map (·.call) <+: calls := by
  induction calls generalizing world with
  | nil => exact List.nil_prefix
  | cons call rest ih =>
      simp only [answers]
      split
      · exact ⟨rest, rfl⟩
      · exact List.cons_prefix_cons.mpr ⟨rfl, ih _⟩

/-- **A strict batch meets the first fault of a graceful one**, and without one it makes the same
calls. -/
theorem answers_strict (p : Provider σ) (calls : List BulkCall) (world : World σ) :
    (p.answers true calls world).1.findSome? (·.fault?) =
        (p.answers false calls world).1.findSome? (·.fault?) ∧
      ((p.answers false calls world).1.findSome? (·.fault?) = none →
        p.answers true calls world = p.answers false calls world) := by
  induction calls generalizing world with
  | nil => exact ⟨rfl, fun _ => rfl⟩
  | cons call rest ih =>
      rcases hquiet : (p.source.fetchBulk call.names call.options).quiet world with
        ⟨outcome, after⟩
      have hgraceful : p.answers false (call :: rest) world = _ :=
        answers_cons hquiet fun h => Bool.noConfusion h
      cases hfault : Answered.fault? ⟨call, outcome, after.now⟩ with
      | some e =>
          rw [hgraceful, answers_of_fault hquiet hfault, List.findSome?_singleton,
            List.findSome?_cons, hfault]
          exact ⟨rfl, fun h => absurd h (Option.some_ne_none e)⟩
      | none =>
          obtain ⟨hfirst, hsame⟩ := ih after
          rw [hgraceful, answers_cons hquiet (fun _ => hfault), List.findSome?_cons,
            List.findSome?_cons, hfault]
          refine ⟨hfirst, fun h => ?_⟩
          rw [hsame h]

end Provider

end CachedParameters
