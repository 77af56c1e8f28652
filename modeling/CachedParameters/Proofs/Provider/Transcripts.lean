import CachedParameters.Proofs.Machine
import CachedParameters.Proofs.Provider.History

/-!
# What a provider replies in the course of a run

Taken as a machine, a provider moves from state to state as in `Provider.run`, and tells every
request with its reply. What it replies does not depend on the events that were told before: of a
state only the backend, the time and the cache matter, so states that agree in these cannot be told
apart by any run.

## Main results

- `Provider.machine_run`: the machine goes through the states of the provider's runs.
- `Provider.serve_same`: states that agree but for their logs are served alike.
-/

namespace CachedParameters

open Batch

variable {σ α : Type}

/-- A world without its notes. A fetch starts without notes, so those that a world has do not matter
to what follows. -/
def World.bare (world : World σ) : World σ := { world with notes := [] }

/-- A fetch whose notes are taken off does not see those left before. -/
theorem Fetch.quiet_congr (fetch : Fetch σ α) {w v : World σ} (h : w.bare = v.bare) :
    fetch.quiet w = fetch.quiet v := by
  have hw : ∀ world : World σ, fetch.quiet world = fetch.quiet world.bare := fun _ => rfl
  rw [hw w, hw v, h]

namespace Provider

/-- Two states agree but for their notes and logs: the backends, the times and the caches are the
same. -/
structure State.Same (s t : State σ) : Prop where
  world : s.world.bare = t.world.bare
  cache : s.cache = t.cache

theorem State.Same.refl (s : State σ) : s.Same s := ⟨rfl, rfl⟩

theorem State.Same.trans {s t u : State σ} (hst : s.Same t) (htu : t.Same u) : s.Same u :=
  ⟨hst.world.trans htu.world, hst.cache.trans htu.cache⟩

theorem State.Same.backend {s t : State σ} (h : s.Same t) : s.world.backend = t.world.backend := by
  have hbare : s.world.bare.backend = t.world.bare.backend := congrArg World.backend h.world
  exact hbare

theorem State.Same.now {s t : State σ} (h : s.Same t) : s.world.now = t.world.now := by
  have hbare : s.world.bare.now = t.world.bare.now := congrArg World.now h.world
  exact hbare

/-! ### Requests -/

section Same

variable {p : Provider σ} {s t : State σ}

/-- What the cache serves for a name is the same. -/
theorem State.Same.cachedValue? (h : s.Same t) (name : String) (options : GetOptions) :
    p.cachedValue? name options s = p.cachedValue? name options t :=
  p.cached?_congr (by rw [h.cache]) h.now

/-- The names that the cache does not serve are the same. -/
theorem State.Same.misses (h : s.Same t) (options : BatchOptions)
    (entries : List (String × Overrides)) :
    p.misses options s entries = p.misses options t entries := by
  simp only [Provider.misses, served?, h.cachedValue?]

theorem State.Same.planned (h : s.Same t) (parameters : List (String × Overrides))
    (options : BatchOptions) : p.planned parameters options s = p.planned parameters options t := by
  have hgroups := p.planned_grouped parameters options s
  rw [h.misses] at hgroups
  have hsame : (p.takeIn options {} (requested parameters).entries s).1.groups =
      (p.takeIn options {} (requested parameters).entries t).1.groups :=
    Dict.ext fun fingerprint =>
      (hgroups fingerprint).trans (p.planned_grouped parameters options t fingerprint).symm
  rw [Provider.planned, Provider.planned, hsame]

/-- The answers to the calls of a plan are the same. -/
theorem answers_congr (p : Provider σ) (strict : Bool) (calls : List BulkCall) {w v : World σ}
    (h : w.bare = v.bare) :
    (p.answers strict calls w).1 = (p.answers strict calls v).1 ∧
      (p.answers strict calls w).2.bare = (p.answers strict calls v).2.bare := by
  cases calls with
  | nil => exact ⟨rfl, h⟩
  | cons call rest =>
      rw [answers, answers, Fetch.quiet_congr _ h]
      exact ⟨rfl, rfl⟩

theorem State.Same.inquire {ρ : Type} (h : s.Same t) (q : Inquiry ρ α) :
    (p.inquire q s).1 = (p.inquire q t).1 ∧ (p.inquire q s).2.Same (p.inquire q t).2 := by
  have hknown : p.known? q s = p.known? q t := p.cached?_congr (by rw [h.cache]) h.now
  cases hs : p.known? q s with
  | some found =>
      rw [inquire_of_known hs, inquire_of_known (hknown.symm.trans hs)]
      exact ⟨rfl, h.world, h.cache⟩
  | none =>
      obtain ⟨hreply, hworld, hcache⟩ := inquire_of_unknown hs
      obtain ⟨hreply', hworld', hcache'⟩ := inquire_of_unknown (hknown.symm.trans hs)
      have hbring : p.bring q s.world = p.bring q t.world := by
        rw [bring, Fetch.quiet_congr _ h.world, bring]
      rw [hbring] at hreply hworld hcache
      rw [h.cache] at hcache
      exact ⟨hreply.trans hreply'.symm, congrArg World.bare (hworld.trans hworld'.symm),
        hcache.trans hcache'.symm⟩

/-- A request that is an inquiry is served the same. -/
theorem State.Same.serve_of_poses {ρ : Type} {request : Request} {q : Inquiry ρ α}
    {reply : Except Error α → Reply} (h : s.Same t) (hposes : request.Poses q reply) :
    (p.serve request s).1 = (p.serve request t).1 ∧
      (p.serve request s).2.Same (p.serve request t).2 := by
  obtain ⟨hreply, hafter⟩ := h.inquire (p := p) q
  rw [hposes.serve, hposes.serve]
  exact ⟨congrArg reply hreply, hafter⟩

theorem State.Same.getByName (h : s.Same t) (parameters : List (String × Overrides))
    (options : BatchOptions) :
    (p.getByName parameters options s).1 = (p.getByName parameters options t).1 ∧
      (p.getByName parameters options s).2.Same (p.getByName parameters options t).2 := by
  by_cases hreserved : errorsKey ∈ (requested parameters).names
  · rw [getByName_of_reserved hreserved, getByName_of_reserved hreserved]
    exact ⟨rfl, h⟩
  · obtain ⟨hanswers, hafter⟩ :=
      p.answers_congr options.strict (p.planned parameters options t) h.world
    have hanswered : p.answered parameters options s = p.answered parameters options t := by
      rw [answered, h.planned, hanswers, answered]
    have hsettled : p.settled parameters options s = p.settled parameters options t := by
      rw [settled, hanswered, settled]
    have hhits : p.hits options s (requested parameters).entries =
        p.hits options t (requested parameters).entries := by
      simp only [hits, served?, h.cachedValue?]
    have hcollected : p.collected parameters options s = p.collected parameters options t := by
      rw [collected, hsettled, hhits, collected]
    obtain ⟨hreply, hworld, hcache⟩ := @getByName_eq σ p parameters options s hreserved
    obtain ⟨hreply', hworld', hcache'⟩ := @getByName_eq σ p parameters options t hreserved
    rw [hanswered, hcollected] at hreply
    rw [h.planned] at hworld
    rw [hsettled, h.cache] at hcache
    refine ⟨hreply.trans hreply'.symm, ?_, hcache.trans hcache'.symm⟩
    rw [hworld, hworld', hafter]

/-- **States that agree but for their logs are served alike.** No operation looks at the events that
were told, so a provider can be studied without the log of what came before. -/
theorem serve_same (h : s.Same t) (request : Request) :
    (p.serve request s).1 = (p.serve request t).1 ∧
      (p.serve request s).2.Same (p.serve request t).2 := by
  cases request with
  | get name options => exact h.serve_of_poses (.ofName name options)
  | getMultiple path options => exact h.serve_of_poses (.ofPath path options)
  | getByName parameters options =>
      obtain ⟨hreply, hafter⟩ := h.getByName (p := p) parameters options
      exact ⟨congrArg Reply.batch hreply, hafter⟩
  | clear => exact ⟨rfl, h.world, rfl⟩

end Same

/-! ### Runs -/

/-- The provider as a machine: it takes the steps of a run, and tells every request with its
reply. -/
def machine (p : Provider σ) : Machine (State σ) (Step σ) (Request × Reply) where
  next s step := (p.step ⟨s, []⟩ step).state
  tells? s
    | .serve request => some (request, (p.serve request s).1)
    | .backend _ | .clock _ => none

/-- A provider that has not done anything yet. -/
def State.start (backend : σ) (now : Instant) : State σ := { world := { backend, now } }

/-- The machine goes through the states of the runs of the provider. -/
theorem machine_run (p : Provider σ) (world : World σ) (steps : List (Step σ)) :
    p.machine.run { world } steps = (p.run world steps).state := by
  have hstep (past : Past σ) (step : Step σ) :
      p.machine.next past.state step = (p.step past step).state := by
    cases step <;> rfl
  have hrun := Machine.run_map (m := .silent p.step) (n := p.machine) (f := Past.state) (g := id)
    hstep { state := { world }, history := [] } steps
  rwa [List.map_id] at hrun

/-- States that agree are moved alike by every step. -/
theorem machine_same {p : Provider σ} {s t : State σ} (h : s.Same t) (step : Step σ) :
    (p.machine.next s step).Same (p.machine.next t step) ∧
      p.machine.tells? s step = p.machine.tells? t step := by
  cases step with
  | serve request =>
      obtain ⟨hreply, hafter⟩ := serve_same (p := p) h request
      exact ⟨hafter, congrArg (fun reply => some (request, reply)) hreply⟩
  | backend change =>
      refine ⟨⟨?_, h.cache⟩, rfl⟩
      exact congrArg (fun world : World σ => { world with backend := change world.backend }) h.world
  | clock now =>
      exact ⟨⟨congrArg (fun world : World σ => { world with now }) h.world, h.cache⟩, rfl⟩

end Provider

end CachedParameters
