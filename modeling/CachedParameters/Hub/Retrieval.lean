import CachedParameters.Cache
import CachedParameters.Event
import CachedParameters.Settings
import CachedParameters.Store.Configurations
import CachedParameters.Store.Parameters
import CachedParameters.Batch
import CachedParameters.Provider

/-!
# One place for all stores

A `Hub` is the facade `Parameters`: it answers for three families of stores, which are parameters,
secrets and application configurations. It works on a `Hub.State`, which knows the backends of the
families, the providers that have been made and what they keep. Configurations have one provider for
each application in each environment.

A hub makes the provider of a family when it is first needed, from the clients of its `Backends` and
its `Settings`, and keeps it, cache included. The providers share a clock and tell their events to
one log, and the configuration providers share a backend, but every provider has a cache of its own.
`Hub.clearCaches` (`clear_caches`) empties every cache that there is, and makes no provider for it.
-/

namespace CachedParameters

/-- The clients of the three families (`Backends`), as they are made when a provider first needs
one. -/
structure Backends (π ς κ : Type) where
  parameters : ParameterClient π
  secrets : SecretClient ς
  configurations : ConfigurationClient κ

/-- The clients to use and the defaults of all providers. -/
structure Hub (π ς κ : Type) where
  backends : Backends π ς κ
  settings : Settings := {}

namespace Hub

/-- An application in an environment. The two parts are not interchangeable, though both are
texts. -/
structure Scope where
  application : String
  environment : String
  deriving DecidableEq, Repr

/-- A configuration provider that has been made: its store, open sessions and cache. -/
structure ConfigurationSlot (κ : Type) where
  store : ConfigurationStore κ
  sessions : Dict Session := .empty
  cache : Cache := .empty

/-- How many clients of each family have been made, which is what a `Backends` sees of a hub. -/
structure ClientCount where
  parameters : Nat := 0
  secrets : Nat := 0
  configurations : Nat := 0
  deriving DecidableEq, Repr

/-- Everything that the operations of a hub change: the backends of the three families, the time,
the caches of the parameter provider and of the secret provider once these are made, the
configuration providers that are made, the clients made so far, and the events, the oldest first. -/
structure State (π ς κ : Type) where
  parameters : π
  secrets : ς
  configurations : κ
  now : Instant
  parameterCache : Option Cache := none
  secretCache : Option Cache := none
  slots : Assoc Scope (ConfigurationSlot κ) := .empty
  made : ClientCount := {}
  log : List Event := []

variable {π ς κ σ α : Type}

/-! ### Families with one provider -/

/-- What a hub has of a family with one provider: its backend, the cache once the provider is made,
and how many clients have been made for it. -/
structure Part (σ : Type) where
  backend : σ
  cache? : Option Cache
  made : Nat

/-- A family with one provider. A hub has its `part` of a state, and `replace` puts something else
in its place, which leaves the rest alone and forgets what was there. -/
structure Family (π ς κ σ : Type) where
  part : State π ς κ → Part σ
  replace : Part σ → State π ς κ → State π ς κ
  part_replace (new : Part σ) (s : State π ς κ) : part (replace new s) = new
  replace_part (s : State π ς κ) : replace (part s) s = s
  replace_replace (new old : Part σ) (s : State π ς κ) (now : Instant) (log : List Event) :
    replace new { replace old s with now, log } = replace new { s with now, log }
  others (new : Part σ) (s : State π ς κ) : (replace new s).configurations = s.configurations ∧
    (replace new s).slots = s.slots ∧ (replace new s).now = s.now ∧ (replace new s).log = s.log

namespace Family

variable (family : Family π ς κ σ)

/-- Makes the provider of a family unless it is there, and gives its cache. A client is made for a
provider when it is made, and never again. -/
def openIn (s : State π ς κ) : Cache × State π ς κ :=
  let part := family.part s
  match part.cache? with
  | some cache => (cache, s)
  | none => (.empty, family.replace { part with cache? := some .empty, made := part.made + 1 } s)

/-- Lets the provider of a family work. -/
def on (work : Provider.State σ → α × Provider.State σ) (s : State π ς κ) : α × State π ς κ :=
  let (cache, s) := family.openIn s
  let part := family.part s
  let (answer, after) := work ⟨⟨part.backend, s.now, []⟩, cache, s.log⟩
  (answer,
    family.replace { part with backend := after.world.backend, cache? := some after.cache }
      { s with now := after.world.now, log := after.log })

/-- Empties the cache of the provider. This records an event, and it makes the provider if it is not
there. -/
def clear (p : Provider σ) (s : State π ς κ) : State π ς κ :=
  (family.on (fun inner => ((), p.clear inner)) s).2

/-- Empties the cache of the provider if it is made. -/
def clearMade (p : Provider σ) (s : State π ς κ) : State π ς κ :=
  if (family.part s).cache?.isSome then family.clear p s else s

end Family

/-! ### Parameters -/

/-- The parameters as a family: the backend and the cache of the parameter provider, and the clients
made for it. -/
def parameterFamily : Family π ς κ π where
  part s := ⟨s.parameters, s.parameterCache, s.made.parameters⟩
  replace part s :=
    { s with
      parameters := part.backend
      parameterCache := part.cache?
      made := { s.made with parameters := part.made } }
  part_replace _ _ := rfl
  replace_part _ := rfl
  replace_replace _ _ _ _ _ := rfl
  others _ _ := ⟨rfl, rfl, rfl, rfl⟩

/-- The provider of the parameter store. Both settings reach it: the age allowed, and whether the
store decrypts unless a call says otherwise. -/
def parameterProvider (hub : Hub π ς κ) : Provider π where
  source := ParameterStore.source ⟨hub.backends.parameters, hub.settings.decrypt⟩
  maxAge := hub.settings.maxAge

/-- Makes the parameter provider unless it is there, and gives its cache. -/
def openParameters : State π ς κ → Cache × State π ς κ := parameterFamily.openIn

def onParameters (work : Provider.State π → α × Provider.State π) :
    State π ς κ → α × State π ς κ := parameterFamily.on work

/-- Retrieves a parameter, on the provider that all parameter operations of the hub share. -/
def getParameter (hub : Hub π ς κ) (name : String) (options : GetOptions) :
    State π ς κ → Except Error ParameterValue × State π ς κ :=
  onParameters (hub.parameterProvider.get name options)

def getParameters (hub : Hub π ς κ) (path : String) (options : GetOptions) :
    State π ς κ → Except Error PathValues × State π ς κ :=
  onParameters (hub.parameterProvider.getMultiple path options)

def getParametersByName (hub : Hub π ς κ) (parameters : List (String × Overrides))
    (options : BatchOptions) : State π ς κ → Except Error BatchResult × State π ς κ :=
  onParameters (hub.parameterProvider.getByName parameters options)

/-- Empties the cache of the parameter provider. -/
def clearParameters (hub : Hub π ς κ) : State π ς κ → State π ς κ :=
  parameterFamily.clear hub.parameterProvider

/-! ### Secrets -/

/-- The secrets as a family: the backend and the cache of the secret provider, and the clients made
for it. -/
def secretFamily : Family π ς κ ς where
  part s := ⟨s.secrets, s.secretCache, s.made.secrets⟩
  replace part s :=
    { s with
      secrets := part.backend
      secretCache := part.cache?
      made := { s.made with secrets := part.made } }
  part_replace _ _ := rfl
  replace_part _ := rfl
  replace_replace _ _ _ _ _ := rfl
  others _ _ := ⟨rfl, rfl, rfl, rfl⟩

/-- The provider of the secret store. Of the settings only the age allowed matters to it. -/
def secretProvider (hub : Hub π ς κ) : Provider ς where
  source := SecretStore.source ⟨hub.backends.secrets⟩
  maxAge := hub.settings.maxAge

/-- Makes the secret provider unless it is there, and gives its cache. -/
def openSecrets : State π ς κ → Cache × State π ς κ := secretFamily.openIn

def onSecrets (work : Provider.State ς → α × Provider.State ς) :
    State π ς κ → α × State π ς κ := secretFamily.on work

def getSecret (hub : Hub π ς κ) (name : String) (options : GetOptions) :
    State π ς κ → Except Error ParameterValue × State π ς κ :=
  onSecrets (hub.secretProvider.get name options)

/-- Empties the cache of the secret provider. -/
def clearSecrets (hub : Hub π ς κ) : State π ς κ → State π ς κ :=
  secretFamily.clear hub.secretProvider

/-! ### Configurations -/

/-- The provider of a configuration store, which is the one of a single application in a single
environment. -/
def configurationProvider (hub : Hub π ς κ) (store : ConfigurationStore κ) :
    Provider (ConfigurationStore.State κ) where
  source := store.source
  maxAge := hub.settings.maxAge

/-- Makes the configuration provider of a scope unless it is there. A client is made for it before
the scope is looked at. -/
def openConfigurations (hub : Hub π ς κ) (scope : Scope) (s : State π ς κ) :
    Except Error (ConfigurationSlot κ) × State π ς κ :=
  match s.slots.find? scope with
  | some slot => (.ok slot, s)
  | none =>
    let s := { s with made := { s.made with configurations := s.made.configurations + 1 } }
    match ConfigurationStore.make hub.backends.configurations scope.application
        scope.environment with
    | .error e => (.error e, s)
    | .ok store => (.ok { store }, { s with slots := s.slots.insert scope { store } })

/-- Lets a configuration provider work. The client is shared by all scopes, while the sessions and
the cache are those of this one. -/
def onSlot (hub : Hub π ς κ) (scope : Scope) (slot : ConfigurationSlot κ)
    (work : Provider (ConfigurationStore.State κ) → Provider.State (ConfigurationStore.State κ) →
      α × Provider.State (ConfigurationStore.State κ))
    (s : State π ς κ) : α × State π ς κ :=
  let (answer, after) := work (hub.configurationProvider slot.store)
    ⟨⟨⟨s.configurations, slot.sessions⟩, s.now, []⟩, slot.cache, s.log⟩
  (answer,
    { s with
      configurations := after.world.backend.client
      now := after.world.now
      slots := s.slots.insert scope
        { slot with sessions := after.world.backend.sessions, cache := after.cache }
      log := after.log })

/-- Retrieves a configuration profile of an application in an environment. -/
def getConfiguration (hub : Hub π ς κ) (scope : Scope) (name : String) (options : GetOptions)
    (s : State π ς κ) : Except Error ParameterValue × State π ς κ :=
  match hub.openConfigurations scope s with
  | (.error e, s) => (.error e, s)
  | (.ok slot, s) => hub.onSlot scope slot (fun provider => provider.get name options) s

/-- Empties the caches of all configuration providers that are made. -/
def clearConfigurations (hub : Hub π ς κ) (s : State π ς κ) : State π ς κ :=
  s.slots.entries.foldl
    (fun s entry =>
      (hub.onSlot entry.1 entry.2 (fun provider inner => ((), provider.clear inner)) s).2) s

/-! ### All families -/

/-- Empties the cache of every provider that is made. -/
def clearCaches (hub : Hub π ς κ) (s : State π ς κ) : State π ς κ :=
  hub.clearConfigurations
    (secretFamily.clearMade hub.secretProvider (parameterFamily.clearMade hub.parameterProvider s))

end Hub

end CachedParameters
