import CachedParameters.Proofs.Hub.Scopes
import CachedParameters.Proofs.Memory.Truthful

/-!
# A hub in front of stores in memory

Such a hub (`Parameters` over `FakeBackends`) is a family of independent providers. Whatever is
asked of it, and whatever happens to its stores and to the clock in between, it replies what
providers would that are each on their own: one for the parameters, one for the secrets, and one for
each application in each environment. The stores of parameters and of secrets see the same calls as
well. The configuration store does not, as its tokens are numbered across all providers, and yet the
replies are the same as long as nothing makes it fail.

## Main results

- `Memory.hub_independent`: a hub is a family of independent providers.
-/

namespace CachedParameters.Memory

open Hub (Act Scope share)

/-- The stores in memory behind a hub. -/
structure Stores where
  parameters : Parameters := {}
  secrets : Secrets := {}
  configurations : Configurations := {}

/-- The hub in front of stores in memory. -/
def hub (settings : Settings) : Hub Parameters Secrets Configurations :=
  ⟨⟨Parameters.client, Secrets.client, Configurations.client⟩, settings⟩

/-- The provider over a secret store in memory. -/
def Secrets.provider (maxAge : Duration) : Provider Secrets :=
  ⟨SecretStore.source ⟨Secrets.client⟩, maxAge⟩

/-- The provider over a configuration store in memory. -/
def Configurations.provider (scope : Scope) (given : scope.Given) (maxAge : Duration) :
    Provider (ConfigurationStore.State Configurations) :=
  ⟨ConfigurationStore.source ⟨Configurations.client, scope.application, scope.environment, given⟩,
    maxAge⟩

/-! ### Runs -/

section Runs

variable (settings : Settings) (stores : Stores) (now : Instant)
  (acts : List (Act Parameters Secrets Configurations))

def hubAfter : Hub.State Parameters Secrets Configurations :=
  (hub settings).machine.run
    (.start stores.parameters stores.secrets stores.configurations now) acts

/-- The requests to one family in the course of a run, with the replies of the hub. -/
def hubReplies (request? : Hub.Operation → Option Request) : List (Request × Reply) :=
  ((hub settings).machine.transcript
    (.start stores.parameters stores.secrets stores.configurations now) acts).filterMap
      (share request?)

/-- What a hub does in the course of a run, compared with providers that are each on their own. -/
structure Independent : Prop where
  /-- To parameters it replies what a parameter provider does. -/
  parameterReplies : hubReplies settings stores now acts Hub.Operation.parameters? =
    (Parameters.provider settings.decrypt settings.maxAge).machine.transcript
      (.start stores.parameters now) (acts.filterMap Act.parameters?)
  /-- The parameter store is what it is behind that provider, with the calls that it recorded. -/
  parameterStore : (hubAfter settings stores now acts).parameters =
    ((Parameters.provider settings.decrypt settings.maxAge).machine.run
      (.start stores.parameters now) (acts.filterMap Act.parameters?)).world.backend
  /-- To secrets it replies what a secret provider does. -/
  secretReplies : hubReplies settings stores now acts Hub.Operation.secrets? =
    (Secrets.provider settings.maxAge).machine.transcript (.start stores.secrets now)
      (acts.filterMap Act.secrets?)
  /-- The secret store is what it is behind that provider, with the calls that it recorded. -/
  secretStore : (hubAfter settings stores now acts).secrets =
    ((Secrets.provider settings.maxAge).machine.run (.start stores.secrets now)
      (acts.filterMap Act.secrets?)).world.backend
  /-- To the configurations of a scope it replies what a provider does that has the scope for
  itself. -/
  configurationReplies (scope : Scope) (given : scope.Given) :
    hubReplies settings stores now acts (Hub.Operation.configurations? scope) =
      (Configurations.provider scope given settings.maxAge).machine.transcript
        (.start ⟨stores.configurations, .empty⟩ now) (acts.filterMap (Act.configurations? scope))
  /-- No provider is made twice: there is one client for each provider that is there, and one more
  for each retrieval that was refused because a part of its scope was missing. -/
  once : let after := hubAfter settings stores now acts
    after.made.parameters ≤ 1 ∧ after.made.secrets ≤ 1 ∧
      after.made.configurations = after.slots.size + acts.countP Act.isRefused
  /-- To empty all caches leaves nothing in the cache of any provider. -/
  emptied : let after := (hub settings).clearCaches (hubAfter settings stores now acts)
    after.parameterState.cache = .empty ∧ after.secretState.cache = .empty ∧
      ∀ scope, (after.configurationState scope).cache = .empty
  /-- What else is done does not matter: another run with the same share for one family has the same
  replies for it. -/
  undisturbed (others : List (Act Parameters Secrets Configurations)) :
    (∀ act ∈ others, act.Harmless) →
    (others.filterMap Act.parameters? = acts.filterMap Act.parameters? →
      hubReplies settings stores now others Hub.Operation.parameters? =
        hubReplies settings stores now acts Hub.Operation.parameters?) ∧
    (others.filterMap Act.secrets? = acts.filterMap Act.secrets? →
      hubReplies settings stores now others Hub.Operation.secrets? =
        hubReplies settings stores now acts Hub.Operation.secrets?) ∧
    ∀ scope : Scope, scope.Given →
      others.filterMap (Act.configurations? scope) = acts.filterMap (Act.configurations? scope) →
      hubReplies settings stores now others (Hub.Operation.configurations? scope) =
        hubReplies settings stores now acts (Hub.Operation.configurations? scope)

/-! ### The families one by one -/

/-- A family with one provider is in a hub what it is with that provider on its own. -/
theorem hub_family {σ : Type} {family : Hub.Family Parameters Secrets Configurations σ}
    {p : Provider σ} {request? : Hub.Operation → Option Request}
    {input? : Act Parameters Secrets Configurations → Option (Step σ)}
    (h : family.Serves (hub settings) p request? input?) {backend : σ}
    (hstart : family.state
      (.start stores.parameters stores.secrets stores.configurations now) = .start backend now) :
    hubReplies settings stores now acts request? =
        p.machine.transcript (.start backend now) (acts.filterMap input?) ∧
      (family.part (hubAfter settings stores now acts)).backend =
        (p.machine.run (.start backend now) (acts.filterMap input?)).world.backend := by
  obtain ⟨hstates, hreplies⟩ := (Hub.Family.follows h).run
    (fun _ _ => trivial : ∀ act ∈ acts, True)
    (.refl (family.state
      (.start stores.parameters stores.secrets stores.configurations now)))
  rw [hstart] at hstates hreplies
  exact ⟨hreplies, hstates.backend⟩

/-- The parameters of a hub are those of a provider on its own. -/
theorem hub_parameters :
    hubReplies settings stores now acts Hub.Operation.parameters? =
        (Parameters.provider settings.decrypt settings.maxAge).machine.transcript
          (.start stores.parameters now) (acts.filterMap Act.parameters?) ∧
      (hubAfter settings stores now acts).parameters =
        ((Parameters.provider settings.decrypt settings.maxAge).machine.run
          (.start stores.parameters now) (acts.filterMap Act.parameters?)).world.backend :=
  hub_family settings stores now acts (hub settings).serves_parameters rfl

/-- The secrets of a hub are those of a provider on its own. -/
theorem hub_secrets :
    hubReplies settings stores now acts Hub.Operation.secrets? =
        (Secrets.provider settings.maxAge).machine.transcript (.start stores.secrets now)
          (acts.filterMap Act.secrets?) ∧
      (hubAfter settings stores now acts).secrets =
        ((Secrets.provider settings.maxAge).machine.run (.start stores.secrets now)
          (acts.filterMap Act.secrets?)).world.backend :=
  hub_family settings stores now acts (hub settings).serves_secrets rfl

end Runs

variable (settings : Settings) {stores : Stores} (now : Instant)
  {acts : List (Act Parameters Secrets Configurations)}

/-- A hub that has not done anything yet is like a provider that has not. -/
theorem mirrored_start (hcalm : stores.configurations.Calm) (scope : Scope) :
    (hub settings).Mirrored scope
      (.start stores.parameters stores.secrets stores.configurations now)
      (.start ⟨stores.configurations, .empty⟩ now) where
  sound := ⟨Hub.housed_start _ _ _ _ _, hcalm, .empty _⟩
  undisturbed := ⟨hcalm, .empty _⟩
  alike := .refl _

/-- The configurations of a scope in a hub are those of a provider on its own. -/
theorem hub_configurations (hcalm : stores.configurations.Calm)
    (hacts : ∀ act ∈ acts, act.Harmless) (scope : Scope) (given : scope.Given) :
    hubReplies settings stores now acts (Hub.Operation.configurations? scope) =
      (Configurations.provider scope given settings.maxAge).machine.transcript
        (.start ⟨stores.configurations, .empty⟩ now)
        (acts.filterMap (Act.configurations? scope)) := by
  have hclient : (hub settings).backends.configurations = Configurations.client := rfl
  obtain ⟨-, hreplies⟩ :=
    (Hub.configurations_follow hclient given).run hacts (mirrored_start settings now hcalm scope)
  exact hreplies

/-- **A hub is a family of independent providers**, as long as nothing makes the configuration store
fail. -/
theorem hub_independent (settings : Settings) (stores : Stores) (now : Instant)
    (acts : List (Act Parameters Secrets Configurations)) (hcalm : stores.configurations.Calm)
    (hacts : ∀ act ∈ acts, act.Harmless) : Independent settings stores now acts := by
  obtain ⟨hparameters, hparameterStore⟩ := hub_parameters settings stores now acts
  obtain ⟨hsecrets, hsecretStore⟩ := hub_secrets settings stores now acts
  have hconfigurations := hub_configurations settings now hcalm hacts
  refine ⟨hparameters, hparameterStore, hsecrets, hsecretStore, hconfigurations, ?_, ?_, ?_⟩
  · have hcounted := (hub settings).counted_run stores.parameters stores.secrets
      stores.configurations now acts
    exact ⟨Nat.le.intro hcounted.parameters, Nat.le.intro hcounted.secrets,
      hcounted.configurations⟩
  · exact ((hub settings).clearCaches_spec (hubAfter settings stores now acts)).caches
  · intro others hothers
    refine ⟨fun hshare => ?_, fun hshare => ?_, fun scope given hshare => ?_⟩
    · rw [hparameters, ← hshare]
      exact (hub_parameters settings stores now others).1
    · rw [hsecrets, ← hshare]
      exact (hub_secrets settings stores now others).1
    · rw [hconfigurations scope given, ← hshare]
      exact hub_configurations settings now hcalm hothers scope given

/-- Two scopes of which one is the other with its parts swapped, a parameter and a secret, in
turns. -/
def assortedActs : List (Act Parameters Secrets Configurations) :=
  [.operate (.getConfiguration ⟨"orders", "prod"⟩ "flags" {}),
    .operate (.getConfiguration ⟨"prod", "orders"⟩ "flags" {}),
    .operate (.getParameter "/limit" {}),
    .configurations fun s => s.setProfile "flags" "v2",
    .parameters fun s => s.put "/limit" "2" false,
    .operate (.getConfiguration ⟨"orders", "prod"⟩ "flags" { forceFetch := true }),
    .operate (.getConfiguration ⟨"prod", "orders"⟩ "flags" {}),
    .operate (.getSecret "key" {}),
    .configurations fun s => { s with recorder := s.recorder.clearFailures },
    .operate .clearCaches,
    .operate (.getConfiguration ⟨"", "prod"⟩ "flags" {}),
    .operate (.getConfiguration ⟨"prod", "orders"⟩ "flags" {})]

/-- Stores with something in each of them. -/
def assortedStores : Stores where
  parameters := Parameters.put {} "/limit" "1" false
  secrets := Secrets.put {} "key" (.text "s")
  configurations := Configurations.setProfile {} "flags" "v1"

/-- The scope with its parts swapped keeps what it has seen until all caches are emptied. -/
theorem hub_independent_assorted :
    assortedStores.configurations.Calm ∧ (∀ act ∈ assortedActs, act.Harmless) ∧
      Independent {} assortedStores .zero assortedActs ∧
      hubReplies {} assortedStores .zero assortedActs
          (Hub.Operation.configurations? ⟨"prod", "orders"⟩) =
        [(.get "flags" {}, .value (.ok (.text "v1"))), (.get "flags" {}, .value (.ok (.text "v1"))),
          (.clear, .cleared), (.get "flags" {}, .value (.ok (.text "v2")))] := by
  have hcalm : assortedStores.configurations.Calm := ⟨fun _ => rfl, rfl⟩
  have hharmless : ∀ act ∈ assortedActs, act.Harmless := by
    simp only [assortedActs, List.forall_mem_cons, Act.Harmless, true_and]
    exact ⟨Configurations.harmless_setProfile "flags" "v2", Configurations.harmless_clearFailures,
      fun _ hmem => nomatch hmem⟩
  exact ⟨hcalm, hharmless, hub_independent {} assortedStores .zero assortedActs hcalm hharmless,
    rfl⟩

end CachedParameters.Memory
