import CachedParameters.Memory.Configurations
import CachedParameters.Memory.Parameters
import CachedParameters.Memory.Secrets
import CachedParameters.Proofs.Hub.Families
import Mathlib.Data.List.Dedup

/-!
# The clients of a hub

A hub makes a client for each provider that it makes, when the provider is first used: this is what
`Backends` promises of its factory methods. Apart from its operations there is another way to use a
provider, which is to take it out of the hub (`parameter_provider`, `secret_provider`,
`app_config_provider`) and to let it work. A run is any sequence of such uses, interleaved with
changes of the backends and of the clock.

The client of a configuration provider is made before the scope is looked at. So a use that is
refused, because the application or the environment is missing, leaves a client behind that belongs
to no provider, and everything else as it was.

## Main definitions

- `Hub.Use`: what a hub is used for.
- `Hub.State.built`: how many providers of each family there are.

## Main results

- `Hub.Opens.of_use`: the providers that a use makes.
- `Hub.client_for_each_provider`: behind every run there is one client for each provider and one for
  each refusal, and there is a provider for what has been asked for.
- `Hub.client_without_provider`: a refusal leaves a client that belongs to no provider.
-/

namespace CachedParameters

/-- Whether a reply is a failure, and which one. -/
def Reply.outcome : Reply → Except Error Unit
  | .value outcome => outcome.map fun _ => ()
  | .values outcome => outcome.map fun _ => ()
  | .batch outcome => outcome.map fun _ => ()
  | .cleared => .ok ()

namespace Hub

variable {π ς κ : Type}

/-! ### Uses -/

/-- Something that a hub goes through: it carries out an operation or something around it changes,
which is an act, or a provider is taken out of it and does some work on its own. -/
inductive Use (π ς κ : Type) where
  | act (act : Act π ς κ)
  | parameterProvider (work : Provider.State π → Provider.State π)
  | secretProvider (work : Provider.State ς → Provider.State ς)
  | configurationProvider (scope : Scope)
      (work : Provider.State (ConfigurationStore.State κ) →
        Provider.State (ConfigurationStore.State κ))

/-- Goes through a use, and tells whether it succeeded. -/
def use (hub : Hub π ς κ) (s : State π ς κ) : Use π ς κ → Except Error Unit × State π ς κ
  | .act (.operate operation) => (hub.serve operation s).map Reply.outcome id
  | .act act => (.ok (), hub.machine.next s act)
  | .parameterProvider work => (onParameters (fun inner => ((), work inner)) s).map .ok id
  | .secretProvider work => (onSecrets (fun inner => ((), work inner)) s).map .ok id
  | .configurationProvider scope work =>
    hub.onConfigurations scope (fun _ inner => ((), work inner)) s

/-- The hub behind some uses. -/
def useAll (hub : Hub π ς κ) (s : State π ς κ) (uses : List (Use π ς κ)) : State π ς κ :=
  (Machine.silent fun s use => (hub.use s use).2).run s uses

namespace Use

/-- Whether a use needs the parameter provider. -/
def needsParameters : Use π ς κ → Bool
  | .act (.operate (.getParameter ..)) | .act (.operate (.getParameters ..))
  | .act (.operate (.getParametersByName ..)) | .parameterProvider _ => true
  | _ => false

/-- Whether a use needs the secret provider. -/
def needsSecrets : Use π ς κ → Bool
  | .act (.operate (.getSecret ..)) | .secretProvider _ => true
  | _ => false

/-- The scope whose configuration provider a use needs. -/
def scope? : Use π ς κ → Option Scope
  | .act (.operate (.getConfiguration scope ..)) | .configurationProvider scope _ => some scope
  | _ => none

/-- Whether a use is refused: it needs the provider of a scope of which a part is missing. -/
def isRefused (use : Use π ς κ) : Bool := use.scope?.any fun scope => ¬ scope.Given

end Use

/-- How many providers of each family there are. -/
def State.built (s : State π ς κ) : ClientCount where
  parameters := if s.parameterCache.isSome then 1 else 0
  secrets := if s.secretCache.isSome then 1 else 0
  configurations := s.slots.size

/-! ### The providers that a use makes -/

/-- The providers that are there behind a use: those that were there before, and those that it
needs. A provider of configurations is only made for a scope that is given. -/
structure Opens (s after : State π ς κ) (parameters secrets : Bool) (needed : Option Scope) :
    Prop where
  parameters : after.parameterCache.isSome = (s.parameterCache.isSome || parameters)
  secrets : after.secretCache.isSome = (s.secretCache.isSome || secrets)
  scopes (scope : Scope) : (after.slots.find? scope).isSome = true ↔
    (s.slots.find? scope).isSome = true ∨ needed = some scope ∧ scope.Given

variable {hub : Hub π ς κ} {s after : State π ς κ}

/-- Nothing is made where the providers are those that were there before. -/
theorem Opens.of_eq (hparameters : after.parameterCache = s.parameterCache)
    (hsecrets : after.secretCache = s.secretCache) (hslots : after.slots = s.slots) :
    Opens s after false false none where
  parameters := by rw [hparameters, Bool.or_false]
  secrets := by rw [hsecrets, Bool.or_false]
  scopes scope := by simp [hslots]

/-- An emptied cache is there if it was there before. -/
theorem Part.isSome_of_eq_emptied {σ : Type} {part emptied : Part σ} (h : emptied = part.emptied) :
    emptied.cache?.isSome = part.cache?.isSome := by
  rw [h, Part.emptied, Option.isSome_map]

/-- To empty the caches needs no provider that is not there. -/
theorem Opens.of_emptied (h : Emptied s after) : Opens s after false false none where
  parameters := (Part.isSome_of_eq_emptied h.parameters).trans (Bool.or_false _).symm
  secrets := (Part.isSome_of_eq_emptied h.secrets).trans (Bool.or_false _).symm
  scopes scope := by simp [h.slots scope]

theorem Opens.of_parameters {α : Type} (work : Provider.State π → α × Provider.State π)
    (s : State π ς κ) : Opens s (onParameters work s).2 true false none := by
  rw [onParameters, Family.on_eq]
  exact ⟨(Bool.or_true _).symm, (Bool.or_false _).symm, fun scope => by simp [parameterFamily]⟩

theorem Opens.of_secrets {α : Type} (work : Provider.State ς → α × Provider.State ς)
    (s : State π ς κ) : Opens s (onSecrets work s).2 false true none := by
  rw [onSecrets, Family.on_eq]
  exact ⟨(Bool.or_false _).symm, (Bool.or_true _).symm, fun scope => by simp [secretFamily]⟩

/-- Work on the configurations of a scope needs the provider of the scope. -/
theorem Opens.of_configurations {α : Type} (hhoused : hub.Housed s) (scope : Scope)
    (work : Provider (ConfigurationStore.State κ) → Provider.State (ConfigurationStore.State κ) →
      α × Provider.State (ConfigurationStore.State κ)) :
    Opens s (hub.onConfigurations scope work s).2 false false (some scope) := by
  by_cases given : scope.Given
  · rw [onConfigurations_of_given hhoused given]
    refine ⟨by simp, by simp, fun other => ?_⟩
    rw [Assoc.find?_insert]
    by_cases hother : other = scope
    · subst hother
      simp [given]
    · simp [hother, Ne.symm hother]
  · rw [onConfigurations_of_not_given hhoused given]
    refine ⟨by simp, by simp, fun other => ?_⟩
    rw [or_iff_left]
    rintro ⟨hother, hgiven⟩
    exact given (Option.some.inj hother ▸ hgiven)

/-- **The providers that a use makes** are those that it needs and that are not there yet, unless it
is refused. -/
theorem Opens.of_use (hhoused : hub.Housed s) (use : Use π ς κ) :
    Opens s (hub.use s use).2 use.needsParameters use.needsSecrets use.scope? := by
  cases use with
  | act act =>
      cases act with
      | operate operation =>
          cases operation with
          | getParameter name options =>
              exact .of_parameters (hub.parameterProvider.get name options) s
          | getParameters path options =>
              exact .of_parameters (hub.parameterProvider.getMultiple path options) s
          | getParametersByName parameters options =>
              exact .of_parameters (hub.parameterProvider.getByName parameters options) s
          | getSecret name options => exact .of_secrets (hub.secretProvider.get name options) s
          | getConfiguration scope name options =>
              rw [Hub.use, Hub.serve, getConfiguration_eq]
              exact .of_configurations hhoused scope fun provider => provider.get name options
          | clearCaches => exact .of_emptied (hub.clearCaches_spec s)
      | parameters | secrets | configurations | clock => exact .of_eq rfl rfl rfl
  | parameterProvider work => exact .of_parameters (fun inner => ((), work inner)) s
  | secretProvider work => exact .of_secrets (fun inner => ((), work inner)) s
  | configurationProvider scope work =>
      exact .of_configurations hhoused scope fun _ inner => ((), work inner)

/-! ### Refusals and clients -/

/-- Behind a use every configuration provider is over the store of its scope. -/
theorem Housed.use (h : hub.Housed s) (use : Use π ς κ) : hub.Housed (hub.use s use).2 := by
  cases use with
  | act act =>
      cases act with
      | operate operation => exact h.serve operation
      | parameters | secrets | configurations | clock => exact h
  | parameterProvider work =>
      rw [Hub.use, onParameters, Family.on_eq]
      exact h
  | secretProvider work =>
      rw [Hub.use, onSecrets, Family.on_eq]
      exact h
  | configurationProvider scope work => exact h.configurations scope _

/-- A use makes a client where it makes a provider, and where it is refused. -/
theorem Counted.use (hhoused : hub.Housed s) {refusals : ℕ} (h : Counted s refusals)
    (use : Use π ς κ) :
    Counted (hub.use s use).2 (refusals + if use.isRefused then 1 else 0) := by
  cases use with
  | act act =>
      cases act with
      | operate operation =>
          have hserve := h.serve hhoused operation
          cases operation <;> exact hserve
      | parameters | secrets | configurations | clock => exact ⟨h.1, h.2, h.3⟩
  | parameterProvider work =>
      rw [Hub.use, onParameters, Family.on_eq]
      exact ⟨h.parameters, h.secrets, h.configurations⟩
  | secretProvider work =>
      rw [Hub.use, onSecrets, Family.on_eq]
      exact ⟨h.parameters, h.secrets, h.configurations⟩
  | configurationProvider scope work =>
      have hwork := h.configurationWork hhoused scope fun _ inner => ((), work inner)
      simpa [Hub.use, Use.isRefused, Use.scope?] using hwork

/-- Clients that are counted are as many as there are providers and refusals. -/
theorem Counted.made_eq {refusals : ℕ} (h : Counted s refusals) :
    s.made = { s.built with configurations := s.built.configurations + refusals } := by
  have hone : ∀ {β : Type} {slot : Option β} {count : ℕ}, count + opened slot = 1 →
      count = if slot.isSome then 1 else 0 := by
    intro β slot count hcount
    cases slot <;> simp only [opened] at hcount ⊢ <;> simp_all
  obtain ⟨hparameters, hsecrets, hconfigurations⟩ := h
  rw [State.built, ← hone hparameters, ← hone hsecrets, ← hconfigurations]

/-- **A refusal** makes a client and changes nothing else. -/
theorem use_of_isRefused (hhoused : hub.Housed s) {use : Use π ς κ} (h : use.isRefused = true) :
    hub.use s use =
      (.error .blankApplication, { s with made.configurations := s.made.configurations + 1 }) := by
  obtain ⟨scope, hscope, hblank⟩ := (Option.any_eq_true _ _).mp h
  have blank : ¬ scope.Given := of_decide_eq_true hblank
  cases use with
  | act act =>
      cases act with
      | operate operation =>
          cases operation with
          | getConfiguration other name options =>
              obtain rfl := Option.some.inj hscope
              simp only [Hub.use, Hub.serve, getConfiguration_of_not_given hhoused blank]
              rfl
          | _ => cases hscope
      | _ => cases hscope
  | configurationProvider other work =>
      obtain rfl := Option.some.inj hscope
      exact onConfigurations_of_not_given hhoused blank _
  | _ => cases hscope

/-! ### Runs -/

/-- What there is behind some uses: the providers that were needed by then and not refused, each
over the store of its scope, and the clients. -/
structure Behind (hub : Hub π ς κ) (uses : List (Use π ς κ)) (s : State π ς κ) : Prop where
  housed : hub.Housed s
  counted : Counted s (uses.countP Use.isRefused)
  parameters : s.parameterCache.isSome = uses.any Use.needsParameters
  secrets : s.secretCache.isSome = uses.any Use.needsSecrets
  scopes (scope : Scope) :
    (s.slots.find? scope).isSome = true ↔ scope ∈ uses.filterMap Use.scope? ∧ scope.Given

/-- One more use leads to a hub that belongs to the uses made so far. The kinds of uses differ only
in what they open, which is what `Opens` tells. -/
theorem Behind.next {uses : List (Use π ς κ)} (h : Behind hub uses s) (use : Use π ς κ) :
    Behind hub (uses ++ [use]) (hub.use s use).2 := by
  have hopens := Opens.of_use h.housed use
  refine ⟨h.housed.use use, ?_, ?_, ?_, fun scope => ?_⟩
  · have hcounted := h.counted.use h.housed use
    rwa [List.countP_append, List.countP_singleton]
  · rw [hopens.parameters, h.parameters, List.any_append]
    simp
  · rw [hopens.secrets, h.secrets, List.any_append]
    simp
  · rw [hopens.scopes, h.scopes, List.filterMap_append, List.mem_append, or_and_right]
    refine or_congr_right (and_congr_left fun _ => ?_)
    cases hscope : use.scope? <;> simp [hscope, eq_comm]

/-- Every run leads to a hub with the providers and clients that belong to its uses. -/
theorem behind_useAll (hub : Hub π ς κ) (parameters : π) (secrets : ς) (configurations : κ)
    (now : Instant) (uses : List (Use π ς κ)) :
    Behind hub uses (hub.useAll (.start parameters secrets configurations now) uses) :=
  Machine.run_induction _ (Behind hub)
    ⟨hub.housed_start parameters secrets configurations now, ⟨rfl, rfl, rfl⟩, rfl, rfl,
      fun scope => by simp [State.start]⟩
    (fun _ _ use h => h.next use) uses

/-- What clients there are behind some uses. -/
structure ClientForEach (hub : Hub π ς κ) (uses : List (Use π ς κ)) (s : State π ς κ) : Prop where
  /-- There is one for each provider, and one for each refusal. -/
  made : s.made =
    { s.built with configurations := s.built.configurations + uses.countP Use.isRefused }
  /-- So there is one for each provider just if nothing was refused. -/
  exact : s.made = s.built ↔ ∀ use ∈ uses, use.isRefused = false
  /-- There is a provider for what was needed: at most one for parameters, at most one for secrets,
  and one for each different scope that is given. -/
  built : s.built =
    { parameters := if uses.any Use.needsParameters then 1 else 0
      secrets := if uses.any Use.needsSecrets then 1 else 0
      configurations := ((uses.filterMap Use.scope?).filter (Scope.Given ·)).dedup.length }
  /-- A further use that is refused fails as a mistake in the configuration. It makes a client and
  changes nothing else. -/
  refused : ∀ use : Use π ς κ, use.isRefused = true → ∃ e, e.kind = .configuration ∧
    hub.use s use = (.error e, { s with made.configurations := s.made.configurations + 1 })

/-- **A client for each provider.** Behind every run there is one client for each provider that was
needed, and one for each use that was refused. -/
theorem client_for_each_provider (hub : Hub π ς κ) (parameters : π) (secrets : ς)
    (configurations : κ) (now : Instant) (uses : List (Use π ς κ)) :
    ClientForEach hub uses
      (hub.useAll (.start parameters secrets configurations now) uses) := by
  have h := hub.behind_useAll parameters secrets configurations now uses
  generalize hub.useAll (.start parameters secrets configurations now) uses = s at h
  have hmade := h.counted.made_eq
  have hsize : s.slots.size =
      ((uses.filterMap Use.scope?).filter (Scope.Given ·)).dedup.length := by
    refine Assoc.size_eq_length (List.nodup_dedup _) fun scope => ?_
    rw [h.scopes, List.mem_dedup, List.mem_filter, decide_eq_true_iff]
  refine ⟨hmade, ?_, ?_, fun use hrefused => ⟨_, rfl, use_of_isRefused h.housed hrefused⟩⟩
  · have hnone : (∀ use ∈ uses, use.isRefused = false) ↔ uses.countP Use.isRefused = 0 := by
      simp [List.countP_eq_zero]
    rw [hnone, hmade]
    constructor
    · intro hsame
      have hcount := congrArg ClientCount.configurations hsame
      simp only at hcount
      omega
    · intro hzero
      rw [hzero]
      rfl
  · rw [State.built, h.parameters, h.secrets, hsize]

/-- A hub over stores in memory that has not done anything yet, and then what it is used for. -/
def usedInMemory (uses : List (Use Memory.Parameters Memory.Secrets Memory.Configurations)) :
    State Memory.Parameters Memory.Secrets Memory.Configurations :=
  (Hub.mk ⟨Memory.Parameters.client, Memory.Secrets.client, Memory.Configurations.client⟩ {}).useAll
    (.start {} {} {} .zero) uses

/-- A retrieval without an application leaves a client that belongs to no provider. -/
theorem client_without_provider :
    ¬ ∀ uses, (usedInMemory uses).made = (usedInMemory uses).built := by
  intro h
  exact absurd (h [.act (.operate (.getConfiguration ⟨"", "prod"⟩ "flags" {}))]) (by decide)

end Hub

end CachedParameters
