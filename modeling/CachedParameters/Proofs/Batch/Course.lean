import CachedParameters.Proofs.Batch.Answers

/-!
# The course of a batch

A batch asks the cache for its names, plans bulk calls for the others, makes them and collects the
fates of the names. This module puts these steps together: what a batch replies, how it leaves the
world and the cache, and which calls its source sees. Every result on batches starts from here.

## Main results

- `Provider.getByName_eq`: the reply of a batch, and the state that it leaves behind.
- `Provider.getByName_watch`: the calls that a batch makes.
- `Provider.planned_perm`: a batch plans to look up the names that the cache does not serve.
- `Provider.planned_ascending`: it goes by the fingerprints of their options, then by name.
-/

namespace CachedParameters

namespace Provider

open Batch

variable {σ : Type}

/-- The names of a batch, each once and with its last overrides. -/
def requested (parameters : List (String × Overrides)) : Dict Overrides := .ofList parameters

/-- The bulk calls that a batch plans. -/
def planned (p : Provider σ) (parameters : List (String × Overrides)) (options : BatchOptions)
    (s : State σ) : List BulkCall :=
  plan p.source.bulkLimit (p.takeIn options {} (requested parameters).entries s).1.groups

/-- The calls that a batch makes, with their answers. -/
def answered (p : Provider σ) (parameters : List (String × Overrides)) (options : BatchOptions)
    (s : State σ) : List Answered :=
  (p.answers options.strict (p.planned parameters options s) s.world).1

/-- The fates of the names that a batch asked for. -/
def settled (p : Provider σ) (parameters : List (String × Overrides)) (options : BatchOptions)
    (s : State σ) : List Settled :=
  (p.answered parameters options s).flatMap (·.settled)

/-- What a batch has collected when it comes to an end. -/
def collected (p : Provider σ) (parameters : List (String × Overrides)) (options : BatchOptions)
    (s : State σ) : BatchResult :=
  (p.settled parameters options s).foldl BatchResult.settle
    ((p.hits options s (requested parameters).entries).foldl
      (fun result hit => result.addValue hit.1 hit.2) .empty)

/-- The reply of a batch that came to a result: a strict batch insists that no name is missing. -/
def conclusion (strict : Bool) (result : BatchResult) : Except Error BatchResult :=
  if strict && !result.isComplete then .error (.missing result.errors) else .ok result

/-! ### The plan -/

/-- What a batch plans to look up are the names that the cache does not serve. -/
theorem planned_grouped (p : Provider σ) (parameters : List (String × Overrides))
    (options : BatchOptions) (s : State σ) :
    Grouped ((p.misses options s (requested parameters).entries).map (p.deferredOf options))
      (p.takeIn options {} (requested parameters).entries s).1.groups := by
  have hnone : Grouped [] (Intake.groups {}) := fun _ => rfl
  exact p.takeIn_grouped options {} (requested parameters).entries s hnone

/-- **A batch plans to look up the names that the cache does not serve**, each once and with its
own options. -/
theorem planned_perm (p : Provider σ) (parameters : List (String × Overrides))
    (options : BatchOptions) (s : State σ) :
    ((p.planned parameters options s).flatMap (·.asked)).Perm
      ((p.misses options s (requested parameters).entries).map (p.deferredOf options)) :=
  plan_perm (p.planned_grouped parameters options s) p.source.bulkLimit

/-- The names that the cache does not serve ascend. -/
theorem misses_ascending (p : Provider σ) (parameters : List (String × Overrides))
    (options : BatchOptions) (s : State σ) :
    ((p.misses options s (requested parameters).entries).map (p.deferredOf options)).Pairwise
      fun x y => x.pending.name < y.pending.name := by
  rw [List.pairwise_map]
  exact (requested parameters).ascending.filter _

/-- **A batch goes by the fingerprints of the options, then by name.** The order in which the names
were given does not show in the calls. -/
theorem planned_ascending (p : Provider σ) (parameters : List (String × Overrides))
    (options : BatchOptions) (s : State σ) :
    ((p.planned parameters options s).flatMap (·.asked)).Pairwise Deferred.Before :=
  plan_ascending (p.planned_grouped parameters options s) p.source.bulkLimit
    (p.misses_ascending parameters options s)

/-- Whether a batch is strict does not change its plan. -/
theorem planned_strict (p : Provider σ) (parameters : List (String × Overrides))
    (options : BatchOptions) (strict : Bool) (s : State σ) :
    p.planned parameters { options with strict } s = p.planned parameters options s := by
  have hsame : (p.takeIn { options with strict } {} (requested parameters).entries s).1.groups =
      (p.takeIn options {} (requested parameters).entries s).1.groups := by
    have hgroups := p.planned_grouped parameters options s
    have hothers := p.planned_grouped parameters { options with strict } s
    exact Dict.ext fun fingerprint => (hothers fingerprint).trans (hgroups fingerprint).symm
  rw [planned, planned, hsame]

/-- Strict or not, a batch gets answers to the calls of one plan. -/
theorem answered_strict (p : Provider σ) (parameters : List (String × Overrides))
    (options : BatchOptions) (strict : Bool) (s : State σ) :
    p.answered parameters { options with strict } s =
      (p.answers strict (p.planned parameters options s) s.world).1 := by
  rw [answered, planned_strict]

/-! ### The whole batch -/

/-- A batch that bears the reserved name is refused, and nothing else happens. -/
theorem getByName_of_reserved {p : Provider σ} {parameters : List (String × Overrides)}
    {options : BatchOptions} {s : State σ} (h : errorsKey ∈ (requested parameters).names) :
    p.getByName parameters options s = (.error .reservedName, s) := by
  rw [getByName]
  exact if_pos (Dict.contains_iff.mpr h)

/-- The calls of a batch: what is planned is carried out behind the intake. -/
def carriedOut (p : Provider σ) (parameters : List (String × Overrides)) (options : BatchOptions)
    (s : State σ) : Except Error BatchResult × State σ :=
  p.runPlan options.strict (p.takeIn options {} (requested parameters).entries s).1.served
    (p.planned parameters options s)
    (p.takeIn options {} (requested parameters).entries s).2

/-- A batch is concluded when its plan was carried out. -/
theorem getByName_of_allowed {p : Provider σ} {parameters : List (String × Overrides)}
    {options : BatchOptions} {s : State σ} (h : errorsKey ∉ (requested parameters).names) :
    p.getByName parameters options s =
      ((p.carriedOut parameters options s).1.bind (conclusion options.strict),
        (p.carriedOut parameters options s).2) := by
  have hreserved : (Dict.ofList parameters).contains errorsKey ≠ true := fun hmem =>
    h (Dict.contains_iff.mp hmem)
  rw [getByName, if_neg hreserved, carriedOut, planned, requested]
  rcases p.takeIn options {} (Dict.ofList parameters).entries s with ⟨intake, asked⟩
  dsimp only
  rcases p.runPlan options.strict intake.served (plan p.source.bulkLimit intake.groups) asked
    with ⟨reply, after⟩
  cases reply with
  | error e => rfl
  | ok result =>
      simp only [Except.bind, conclusion]
      split <;> rfl

/-- **The reply of a batch**, and the state that it leaves behind: the world after its calls, and
the cache with the values that were found before the first failure that ended it. -/
theorem getByName_eq {p : Provider σ} {parameters : List (String × Overrides)}
    {options : BatchOptions} {s : State σ} (h : errorsKey ∉ (requested parameters).names) :
    (p.getByName parameters options s).1 =
        (conclude options.strict ((p.answered parameters options s).findSome? (·.fault?))
          (p.collected parameters options s)).bind (conclusion options.strict) ∧
      (p.getByName parameters options s).2.world =
        (p.answers options.strict (p.planned parameters options s) s.world).2 ∧
      (p.getByName parameters options s).2.cache =
        (upToFailure options.strict (p.settled parameters options s)).foldl Cache.settle
          s.cache := by
  obtain ⟨hworld, hcache⟩ := p.takeIn_state options {} (requested parameters).entries s
  have hcollected : p.collected parameters options s =
      (p.settled parameters options s).foldl BatchResult.settle
        (p.takeIn options {} (requested parameters).entries s).1.served := by
    rw [takeIn_served]
    rfl
  obtain ⟨hreply, hafter, hkept⟩ := p.runPlan_eq options.strict
    (p.takeIn options {} (requested parameters).entries s).1.served
    (p.planned parameters options s)
    (p.takeIn options {} (requested parameters).entries s).2
  rw [hworld] at hreply hafter hkept
  rw [hcache] at hkept
  rw [getByName_of_allowed h, hcollected]
  exact ⟨congrArg (·.bind (conclusion options.strict)) hreply, hafter, hkept⟩

/-- **The calls that a batch makes** are those that it got answers to. Nothing else is seen of it,
so answers may be counted in place of calls. -/
theorem getByName_watch {p : Provider σ} {parameters : List (String × Overrides)}
    {options : BatchOptions} {s : State σ} (h : errorsKey ∉ (requested parameters).names)
    (seen : List Exchange) :
    p.watched.getByName parameters options (s.watch seen) =
      ((p.getByName parameters options s).1, (p.getByName parameters options s).2.watch
        (seen ++ (p.answered parameters options s).map (·.exchange))) := by
  obtain ⟨hworld, -⟩ := p.takeIn_state options {} (requested parameters).entries s
  have hrun := p.runPlan_watch options.strict
    (p.takeIn options {} (requested parameters).entries s).1.served
    (p.planned parameters options s) seen
    (p.takeIn options {} (requested parameters).entries s).2
  rw [hworld] at hrun
  have hplanned : p.watched.planned parameters options (s.watch seen) =
      p.planned parameters options s := by
    rw [planned, takeIn_watch]
    rfl
  have hcarried : p.watched.carriedOut parameters options (s.watch seen) =
      ((p.carriedOut parameters options s).1, (p.carriedOut parameters options s).2.watch
        (seen ++ (p.answered parameters options s).map (·.exchange))) := by
    rw [carriedOut, hplanned, takeIn_watch]
    exact hrun
  rw [getByName_of_allowed h, getByName_of_allowed h, hcarried]

end Provider

end CachedParameters
