import CachedParameters.Proofs.Hub.Operations
import CachedParameters.Proofs.Store.Timeless

/-!
# The families of a hub do not disturb each other

A run of a hub is any sequence of operations, interleaved with changes of the backends and of the
clock. There are two families with one provider, the parameters and the secrets. Of a run, the
provider of a family takes its share: the operations on the family, the changes of its backend and
of the clock, and the requests to empty all caches. The hub replies to these operations what a
provider replies that is on its own and takes this share only. What the families need of each other
is only that they take no time.

## Main results

- `Hub.Family.follows`: the provider of a family, on its own, follows the hub.
- `Hub.serves_parameters`, `Hub.serves_secrets`: there are two such families.
- `Hub.counted_run`: how many clients of each family are made in the course of a run.
-/

namespace CachedParameters

namespace Provider

variable {σ υ ι ο : Type}

/-- A provider follows a machine if it is in sight: `view` shows it, and what the machine does is
seen as what the provider does. -/
theorem follows_of_view {p : Provider σ} {m : Machine υ ι ο} {allowed : ι → Prop}
    {input? : ι → Option (Step σ)} {output? : ο → Option (Request × Reply)}
    {view : υ → Provider.State σ}
    (hown : ∀ s input step, input? input = some step →
      (view (m.next s input)).Same (p.machine.next (view s) step) ∧
        (m.tells? s input).bind output? = p.machine.tells? (view s) step)
    (hother : ∀ s input, input? input = none →
      (view (m.next s input)).Same (view s) ∧ (m.tells? s input).bind output? = none) :
    p.machine.Follows m allowed input? output? fun s t => (view s).Same t where
  own {s t input step} _ hst hinput := by
    obtain ⟨hnext, htold⟩ := hown s input step hinput
    obtain ⟨hsame, htells⟩ := machine_same (p := p) hst step
    exact ⟨hnext.trans hsame, htold.trans htells⟩
  other {s t input} _ hst hinput := by
    obtain ⟨hnext, htold⟩ := hother s input hinput
    exact ⟨hnext.trans hst, htold⟩

end Provider

namespace Hub

variable {π ς κ σ : Type}

/-! ### Runs -/

/-- Something that happens to a hub: it carries out an operation, the backend of a family changes by
itself, or the clock shows another time. -/
inductive Act (π ς κ : Type) where
  | operate (operation : Operation)
  | parameters (change : π → π)
  | secrets (change : ς → ς)
  | configurations (change : κ → κ)
  | clock (now : Instant)

/-- The hub as a machine: it takes the acts of a run, and tells every operation with its reply. -/
def machine (hub : Hub π ς κ) : Machine (State π ς κ) (Act π ς κ) (Operation × Reply) where
  next s
    | .operate operation => (hub.serve operation s).2
    | .parameters change => { s with parameters := change s.parameters }
    | .secrets change => { s with secrets := change s.secrets }
    | .configurations change => { s with configurations := change s.configurations }
    | .clock now => { s with now }
  tells? s
    | .operate operation => some (operation, (hub.serve operation s).1)
    | .parameters _ | .secrets _ | .configurations _ | .clock _ => none

/-- A hub that has not done anything yet. -/
def State.start (parameters : π) (secrets : ς) (configurations : κ) (now : Instant) :
    State π ς κ := { parameters, secrets, configurations, now }

/-! ### Shares -/

namespace Operation

/-- What an operation asks of the parameter provider. -/
def parameters? : Operation → Option Request
  | .getParameter name options => some (.get name options)
  | .getParameters path options => some (.getMultiple path options)
  | .getParametersByName parameters options => some (.getByName parameters options)
  | .clearCaches => some .clear
  | .getSecret .. | .getConfiguration .. => none

/-- What an operation asks of the secret provider. -/
def secrets? : Operation → Option Request
  | .getSecret name options => some (.get name options)
  | .clearCaches => some .clear
  | .getParameter .. | .getParameters .. | .getParametersByName .. | .getConfiguration .. => none

/-- What an operation asks of the configuration provider of a scope. -/
def configurations? (scope : Scope) : Operation → Option Request
  | .getConfiguration other name options =>
    if other = scope then some (.get name options) else none
  | .clearCaches => some .clear
  | .getParameter .. | .getParameters .. | .getParametersByName .. | .getSecret .. => none

/-- An operation asks something of the parameter provider, and nothing of the others. So whatever
the three operations on parameters have in common is proved once. -/
structure OnParameters (operation : Operation) (request : Request) : Prop where
  parameters : operation.parameters? = some request
  secrets : operation.secrets? = none
  configurations (scope : Scope) : operation.configurations? scope = none

/-- An operation is on parameters, on a secret or on a configuration, or it empties all caches. -/
theorem kinds (operation : Operation) :
    (∃ request, operation.OnParameters request) ∨
      (∃ name options, operation = .getSecret name options) ∨
      (∃ scope name options, operation = .getConfiguration scope name options) ∨
      operation = .clearCaches := by
  cases operation with
  | getParameter | getParameters | getParametersByName => exact .inl ⟨_, rfl, rfl, fun _ => rfl⟩
  | getSecret name options => exact .inr (.inl ⟨name, options, rfl⟩)
  | getConfiguration scope name options => exact .inr (.inr (.inl ⟨scope, name, options, rfl⟩))
  | clearCaches => exact .inr (.inr (.inr rfl))

end Operation

namespace Act

/-- The share of the parameter provider in an act: what an operation asks of it, a change of its
backend, or a change of the time, which all providers share. -/
def parameters? : Act π ς κ → Option (Step π)
  | .operate operation => operation.parameters?.map .serve
  | .parameters change => some (.backend change)
  | .clock now => some (.clock now)
  | .secrets _ | .configurations _ => none

/-- The share of the secret provider in an act, likewise. -/
def secrets? : Act π ς κ → Option (Step ς)
  | .operate operation => operation.secrets?.map .serve
  | .secrets change => some (.backend change)
  | .clock now => some (.clock now)
  | .parameters _ | .configurations _ => none

/-- The share of the configuration provider of a scope. -/
def configurations? (scope : Scope) : Act π ς κ → Option (Step (ConfigurationStore.State κ))
  | .operate operation => (operation.configurations? scope).map .serve
  | .configurations change => some (.backend fun s => { s with client := change s.client })
  | .clock now => some (.clock now)
  | .parameters _ | .secrets _ => none

end Act

/-- What is told of the requests of one family. -/
def share (request? : Operation → Option Request) (told : Operation × Reply) :
    Option (Request × Reply) := (request? told.1).map fun request => (request, told.2)

/-! ### What the operations on other families leave alone -/

/-- Work on a provider of configurations leaves the families with one provider and the clock
alone. -/
theorem getConfiguration_others (hub : Hub π ς κ) (scope : Scope) (name : String)
    (options : GetOptions) (s : State π ς κ) :
    let after := (hub.getConfiguration scope name options s).2
    parameterFamily.part after = parameterFamily.part s ∧
      secretFamily.part after = secretFamily.part s ∧ after.now = s.now := by
  have hnow : ∀ (slot : ConfigurationSlot κ) (inner : Provider.State (ConfigurationStore.State κ)),
      ((hub.configurationProvider slot.store).get name options inner).2.world.now =
        inner.world.now := fun slot inner =>
    slot.store.timeless.serve (p := hub.configurationProvider slot.store) (.get name options) inner
  cases hslot : s.slots.find? scope with
  | some slot =>
      simp only [getConfiguration, openConfigurations, hslot, onSlot]
      exact ⟨rfl, rfl, hnow slot _⟩
  | none =>
      cases hmake : ConfigurationStore.make hub.backends.configurations scope.application
          scope.environment with
      | error e =>
          simp only [getConfiguration, openConfigurations, hslot, hmake]
          exact ⟨rfl, rfl, trivial⟩
      | ok store =>
          simp only [getConfiguration, openConfigurations, hslot, hmake, onSlot]
          exact ⟨rfl, rfl, hnow { store } _⟩

/-- Work on a family whose source takes no time leaves the configurations and the clock alone. -/
theorem Family.on_others (family : Family π ς κ σ) {p : Provider σ} (h : p.source.Timeless)
    (request : Request) (s : State π ς κ) :
    let after := (family.on (p.serve request) s).2
    after.configurations = s.configurations ∧ after.slots = s.slots ∧ after.now = s.now := by
  rw [family.on_eq]
  intro after
  obtain ⟨hconfigurations, hslots, hnow, -⟩ :=
    family.others ((family.part s).worked (p.serve request (family.state s)).2)
      { s with
        now := (p.serve request (family.state s)).2.world.now
        log := (p.serve request (family.state s)).2.log }
  exact ⟨hconfigurations, hslots, hnow.trans (h.serve request (family.state s))⟩

/-- An operation on parameters is a request to their provider. -/
theorem serve_of_parameters {operation : Operation} {request : Request}
    (h : operation.OnParameters request) (hub : Hub π ς κ) (s : State π ς κ) :
    hub.serve operation s = parameterFamily.on (hub.parameterProvider.serve request) s := by
  have hrequest := h.parameters
  cases operation with
  | getParameter | getParameters | getParametersByName =>
      obtain rfl := Option.some.inj hrequest
      simp only [serve, getParameter, getParameters, getParametersByName, onParameters,
        Family.on_eq]
      rfl
  | getSecret | getConfiguration => cases hrequest
  | clearCaches => cases h.secrets

/-- An operation on secrets is a request to theirs. -/
theorem serve_getSecret (hub : Hub π ς κ) (name : String) (options : GetOptions)
    (s : State π ς κ) :
    hub.serve (.getSecret name options) s =
      secretFamily.on (hub.secretProvider.serve (.get name options)) s := by
  simp only [serve, getSecret, onSecrets, Family.on_eq]
  rfl

/-! ### Families with one provider -/

/-- A provider `p` serves a family of a hub: `request?` tells what an operation asks of it, and
`input?` is its share of a run. An operation with a request is its work, and an operation without
one leaves the family and the clock as they are. What happens around the operations is seen of the
provider if it is in its share, and else is not seen of it. -/
structure Family.Serves (family : Family π ς κ σ) (hub : Hub π ς κ) (p : Provider σ)
    (request? : Operation → Option Request) (input? : Act π ς κ → Option (Step σ)) : Prop where
  operate (operation : Operation) : input? (.operate operation) = (request? operation).map .serve
  clears : request? .clearCaches = some .clear
  emptied (s : State π ς κ) : family.part (hub.clearCaches s) = (family.part s).emptied
  works {operation : Operation} {request : Request} (s : State π ς κ) :
    request? operation = some request → operation ≠ .clearCaches →
      hub.serve operation s = family.on (p.serve request) s
  spares {operation : Operation} (s : State π ς κ) : request? operation = none →
    family.part (hub.serve operation s).2 = family.part s ∧ (hub.serve operation s).2.now = s.now
  around (act : Act π ς κ) (s : State π ς κ) : (∃ operation, act = .operate operation) ∨
    hub.machine.tells? s act = none ∧
      match input? act with
      | some step => p.machine.tells? (family.state s) step = none ∧
        (family.state (hub.machine.next s act)).Same (p.machine.next (family.state s) step)
      | none => (family.state (hub.machine.next s act)).Same (family.state s)

section Follows

variable {family : Family π ς κ σ} {hub : Hub π ς κ} {p : Provider σ}
  {request? : Operation → Option Request} {input? : Act π ς κ → Option (Step σ)}

/-- An operation with a request is seen as the provider serving that, and replies the same. -/
theorem Family.Serves.operation (h : family.Serves hub p request? input?) {operation : Operation}
    {request : Request} (hrequest : request? operation = some request) (s : State π ς κ) :
    (family.state (hub.serve operation s).2).Same (p.serve request (family.state s)).2 ∧
      (hub.serve operation s).1 = (p.serve request (family.state s)).1 := by
  by_cases hclear : operation = .clearCaches
  · subst hclear
    obtain rfl := Option.some.inj (h.clears.symm.trans hrequest)
    exact ⟨family.state_emptied (h.emptied s) (hub.clearCaches_spec s).now p, rfl⟩
  · rw [h.works s hrequest hclear]
    refine ⟨family.state_on _ s, ?_⟩
    rw [family.on_eq]

/-- **A provider on its own follows the hub** in all that concerns its family. An act that is no
business of the family leaves its part and the time as they are, and every other one does to it what
the provider does. -/
theorem Family.follows (h : family.Serves hub p request? input?) :
    p.machine.Follows hub.machine (fun _ => True) input? (share request?)
      fun s t => (family.state s).Same t := by
  refine Provider.follows_of_view (fun s act step hact => ?_) fun s act hact => ?_
  · rcases h.around act s with ⟨operation, rfl⟩ | ⟨htold, hseen⟩
    · rw [h.operate] at hact
      obtain ⟨request, hrequest, rfl⟩ := Option.map_eq_some_iff.mp hact
      obtain ⟨hsame, hreply⟩ := h.operation hrequest s
      refine ⟨hsame, ?_⟩
      simp only [machine, Provider.machine, Option.bind_some, share, hrequest, hreply,
        Option.map_some]
    · rw [hact] at hseen
      rw [htold, hseen.1]
      exact ⟨hseen.2, rfl⟩
  · rcases h.around act s with ⟨operation, rfl⟩ | ⟨htold, hseen⟩
    · rw [h.operate] at hact
      have hrequest := Option.map_eq_none_iff.mp hact
      obtain ⟨hpart, hnow⟩ := h.spares s hrequest
      refine ⟨family.state_same hpart hnow, ?_⟩
      simp only [machine, Option.bind_some, share, hrequest, Option.map_none]
    · rw [hact] at hseen
      rw [htold]
      exact ⟨hseen, rfl⟩

end Follows

/-- The parameter provider serves the parameters: what a run does with them is what it does alone,
given its share of the acts. -/
theorem serves_parameters (hub : Hub π ς κ) :
    parameterFamily.Serves hub hub.parameterProvider Operation.parameters? Act.parameters? where
  operate _ := rfl
  clears := rfl
  emptied s := (hub.clearCaches_spec s).parameters
  works {operation request} s hrequest hclear := by
    rcases operation.kinds with ⟨asked, hasked⟩ | ⟨_, _, rfl⟩ | ⟨_, _, _, rfl⟩ | rfl
    · obtain rfl := Option.some.inj (hasked.parameters.symm.trans hrequest)
      exact serve_of_parameters hasked hub s
    · cases hrequest
    · cases hrequest
    · exact absurd rfl hclear
  spares {operation} s hrequest := by
    cases operation with
    | getSecret name options =>
        obtain ⟨-, -, hnow⟩ := secretFamily.on_others (p := hub.secretProvider)
          (SecretStore.timeless _) (.get name options) s
        rw [serve_getSecret]
        refine ⟨?_, hnow⟩
        rw [Family.on_eq]
        rfl
    | getConfiguration scope name options =>
        obtain ⟨hpart, -, hnow⟩ := hub.getConfiguration_others scope name options s
        exact ⟨hpart, hnow⟩
    | getParameter | getParameters | getParametersByName | clearCaches => cases hrequest
  around act s := by
    cases act with
    | operate operation => exact .inl ⟨operation, rfl⟩
    | parameters | clock => exact .inr ⟨rfl, rfl, .refl _⟩
    | secrets | configurations => exact .inr ⟨rfl, .refl _⟩

/-- The secret provider serves the secrets, given its share of the acts. -/
theorem serves_secrets (hub : Hub π ς κ) :
    secretFamily.Serves hub hub.secretProvider Operation.secrets? Act.secrets? where
  operate _ := rfl
  clears := rfl
  emptied s := (hub.clearCaches_spec s).secrets
  works {operation request} s hrequest hclear := by
    cases operation with
    | getSecret name options =>
        obtain rfl := Option.some.inj hrequest
        exact hub.serve_getSecret name options s
    | clearCaches => exact absurd rfl hclear
    | getParameter | getParameters | getParametersByName | getConfiguration => cases hrequest
  spares {operation} s hrequest := by
    rcases operation.kinds with ⟨asked, hasked⟩ | ⟨_, _, rfl⟩ | ⟨scope, name, options, rfl⟩ | rfl
    · obtain ⟨-, -, hnow⟩ := parameterFamily.on_others (p := hub.parameterProvider)
        (ParameterStore.timeless _) asked s
      rw [serve_of_parameters hasked]
      refine ⟨?_, hnow⟩
      rw [Family.on_eq]
      rfl
    · cases hrequest
    · obtain ⟨-, hpart, hnow⟩ := hub.getConfiguration_others scope name options s
      exact ⟨hpart, hnow⟩
    · cases hrequest
  around act s := by
    cases act with
    | operate operation => exact .inl ⟨operation, rfl⟩
    | secrets | clock => exact .inr ⟨rfl, rfl, .refl _⟩
    | parameters | configurations => exact .inr ⟨rfl, .refl _⟩

/-! ### Providers in their places -/

/-- Behind work on the configurations of a scope every configuration provider is over the store of
its scope. -/
theorem Housed.configurations {α : Type} {hub : Hub π ς κ} {s : State π ς κ} (h : hub.Housed s)
    (scope : Scope) (work : Provider (ConfigurationStore.State κ) →
      Provider.State (ConfigurationStore.State κ) →
        α × Provider.State (ConfigurationStore.State κ)) :
    hub.Housed (hub.onConfigurations scope work s).2 := by
  intro other slot hslot
  by_cases given : scope.Given
  · simp only [onConfigurations_of_given h given, Assoc.find?_insert] at hslot
    split at hslot
    · rename_i hother
      subst hother
      obtain rfl := Option.some.inj hslot
      exact ⟨given, rfl⟩
    · exact h other slot hslot
  · simp only [onConfigurations_of_not_given h given] at hslot
    exact h other slot hslot

/-- A hub that has not done anything yet has no configuration provider. -/
theorem housed_start (hub : Hub π ς κ) (parameters : π) (secrets : ς) (configurations : κ)
    (now : Instant) : hub.Housed (.start parameters secrets configurations now) :=
  fun _ _ hslot => nomatch hslot

/-- Behind an operation every configuration provider is over the store of its scope. -/
theorem Housed.serve {hub : Hub π ς κ} {s : State π ς κ} (h : hub.Housed s)
    (operation : Operation) : hub.Housed (hub.serve operation s).2 := by
  rcases operation.kinds with ⟨asked, hasked⟩ | ⟨name, options, rfl⟩ | ⟨scope, name, options, rfl⟩ |
    rfl
  · rw [serve_of_parameters hasked, Family.on_eq]
    exact h
  · rw [serve_getSecret, Family.on_eq]
    exact h
  · rw [Hub.serve, getConfiguration_eq]
    exact h.configurations scope _
  · intro other slot hslot
    rw [show (hub.serve .clearCaches s).2 = hub.clearCaches s from rfl,
      (hub.clearCaches_spec s).slots other] at hslot
    obtain ⟨kept, hkept, rfl⟩ := Option.map_eq_some_iff.mp hslot
    exact h other kept hkept

/-- Behind an act every configuration provider is over the store of its scope. -/
theorem Housed.next {hub : Hub π ς κ} {s : State π ς κ} (h : hub.Housed s) (act : Act π ς κ) :
    hub.Housed (hub.machine.next s act) := by
  cases act with
  | operate operation => exact h.serve operation
  | parameters | secrets | configurations | clock => exact h

/-! ### Counting -/

/-- Whether an act is a retrieval that is refused because a part of its scope is missing. -/
def Act.isRefused : Act π ς κ → Bool
  | .operate (.getConfiguration scope _ _) => decide (¬ scope.Given)
  | _ => false

/-- A family with an emptied cache has as many clients and providers as before. -/
theorem Part.counted_of_eq_emptied {part emptied : Part σ} (h : emptied = part.emptied) :
    emptied.made + opened emptied.cache? = part.made + opened part.cache? := by
  rw [h, Part.emptied, opened, Option.isSome_map, opened]

/-- The clients that were made: one for each provider that is made, and one for each refusal. -/
structure Counted (s : State π ς κ) (refusals : ℕ) : Prop where
  parameters : s.made.parameters + opened s.parameterCache = 1
  secrets : s.made.secrets + opened s.secretCache = 1
  configurations : s.made.configurations = s.slots.size + refusals

/-- Work on the configurations of a scope makes a client where it opens the provider, and where it
is refused. -/
theorem Counted.configurationWork {α : Type} {hub : Hub π ς κ} {s : State π ς κ}
    (hhoused : hub.Housed s) {refusals : ℕ} (h : Counted s refusals) (scope : Scope)
    (work : Provider (ConfigurationStore.State κ) → Provider.State (ConfigurationStore.State κ) →
      α × Provider.State (ConfigurationStore.State κ)) :
    Counted (hub.onConfigurations scope work s).2
      (refusals + if scope.Given then 0 else 1) := by
  have hcount := h.configurations
  by_cases given : scope.Given
  · rw [onConfigurations_of_given hhoused given, if_pos given]
    refine ⟨h.parameters, h.secrets, ?_⟩
    simp only [Assoc.size_insert, opened]
    omega
  · rw [onConfigurations_of_not_given hhoused given, if_neg given]
    refine ⟨h.parameters, h.secrets, ?_⟩
    simp only
    omega

/-- An operation makes a client where it opens a provider, and where it is refused. -/
theorem Counted.serve {hub : Hub π ς κ} {s : State π ς κ} (hhoused : hub.Housed s) {refusals : ℕ}
    (h : Counted s refusals) (operation : Operation) :
    Counted (hub.serve operation s).2
      (refusals + if (Act.operate operation : Act π ς κ).isRefused then 1 else 0) := by
  rcases operation.kinds with ⟨asked, hasked⟩ | ⟨name, options, rfl⟩ | ⟨scope, name, options, rfl⟩ |
    rfl
  · have hrefused : (Act.operate operation : Act π ς κ).isRefused = false := by
      cases operation <;> first | rfl | cases hasked.parameters
    rw [hrefused, serve_of_parameters hasked, Family.on_eq]
    exact ⟨h.parameters, h.secrets, h.configurations⟩
  · rw [serve_getSecret, Family.on_eq]
    exact ⟨h.parameters, h.secrets, h.configurations⟩
  · rw [Hub.serve, getConfiguration_eq, Act.isRefused]
    simpa using h.configurationWork hhoused scope fun provider => provider.get name options
  · have hemptied := hub.clearCaches_spec s
    refine ⟨?_, ?_, ?_⟩
    · exact (Part.counted_of_eq_emptied hemptied.parameters).trans h.parameters
    · exact (Part.counted_of_eq_emptied hemptied.secrets).trans h.secrets
    · rw [Hub.serve, hemptied.made, hemptied.size]
      exact h.configurations

/-- **The clients of a run** are one for each provider that is made, and one for each refusal. -/
theorem counted_run (hub : Hub π ς κ) (parameters : π) (secrets : ς) (configurations : κ)
    (now : Instant) (acts : List (Act π ς κ)) :
    Counted (hub.machine.run (State.start parameters secrets configurations now) acts)
      (acts.countP Act.isRefused) := by
  refine (hub.machine.run_induction
    (fun acts s => hub.Housed s ∧ Counted s (acts.countP Act.isRefused))
    ⟨hub.housed_start parameters secrets configurations now, ⟨rfl, rfl, rfl⟩⟩ ?_ acts).2
  rintro taken s act ⟨hhoused, h⟩
  refine ⟨hhoused.next act, ?_⟩
  rw [List.countP_append, List.countP_singleton]
  cases act with
  | operate operation => exact h.serve hhoused operation
  | parameters | secrets | configurations | clock => exact ⟨h.1, h.2, h.3⟩

end Hub

end CachedParameters
