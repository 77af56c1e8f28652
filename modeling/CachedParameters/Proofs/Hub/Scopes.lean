import CachedParameters.Proofs.Hub.Families
import CachedParameters.Proofs.Memory.Standings

/-!
# The scopes of a hub do not disturb each other

All configuration providers of a hub poll one store in memory. A provider on its own polls another
one, in which the tokens have other numbers, and yet it replies what the provider in the hub does:
both see the same profiles, and their sessions stand alike. As the sessions of all scopes hold
different tokens, what is done for one scope leaves the standings of the others as they are.

Two providers are `Alike` if their sessions stand alike. A look-up keeps them alike. The invariant
is `Hub.Mirrored`: the provider of a scope in the hub is like the one on its own, and the sessions
of all scopes are kept apart. Acts for other scopes keep it because of the latter.

## Main results

- `Provider.Alike.get`: providers that are alike reply alike, and stay so.
- `Hub.Sound.next`: an act keeps the sessions of all scopes apart.
- `Hub.Sound.alike_of_other`: an act that is not the business of a scope leaves its provider as it
  is.
- `Hub.configurations_follow`: a provider on its own follows the hub in all that concerns a scope.
-/

namespace CachedParameters

open Memory.Configurations (standing? FetchedAs Apart)

/-! ### Providers that are alike -/

namespace Provider

/-- What a provider in front of a configuration store in memory works on. -/
abbrev Polling := State (ConfigurationStore.State Memory.Configurations)

/-- Two providers see the same profiles at the same time, keep the same and have sessions that stand
alike. Their tokens may differ, and so may the calls that they have made. -/
structure Alike (s t : Polling) : Prop where
  profiles : s.world.backend.client.profiles = t.world.backend.client.profiles
  now : s.world.now = t.world.now
  cache : s.cache = t.cache
  standing (profile : String) :
    standing? s.world.backend.client s.world.backend.sessions profile =
      standing? t.world.backend.client t.world.backend.sessions profile

/-- Nothing is made to fail, and the sessions of a provider are kept apart. -/
structure Undisturbed (s : Polling) : Prop where
  calm : s.world.backend.client.Calm
  apart : Apart s.world.backend.client (fun _ : Unit => s.world.backend.sessions)

/-- What a look-up does to a configuration store: nothing at all, since the cache serves the
profile, or it fetches the profile. -/
inductive Touches (profile : String) (s : ConfigurationStore.State Memory.Configurations) :
    ConfigurationStore.State Memory.Configurations → Prop where
  | kept : Touches profile s s
  | fetched {reply : Except Error RawValue}
    {after : ConfigurationStore.State Memory.Configurations} :
    FetchedAs s profile reply after → Touches profile s after

section Touches

variable {profile : String} {s after : ConfigurationStore.State Memory.Configurations}

theorem Touches.profiles (h : Touches profile s after) :
    after.client.profiles = s.client.profiles := by
  cases h with
  | kept => rfl
  | fetched hfetch => exact hfetch.spares.profiles

theorem Touches.calm (h : Touches profile s after) (hcalm : s.client.Calm) : after.client.Calm := by
  cases h with
  | kept => exact hcalm
  | fetched hfetch => exact hfetch.spares.calm

variable {ι : Type} {sessions later : ι → Dict Session} {i : ι}

/-- A look-up keeps all sessions apart. -/
theorem Touches.apart (h : Touches profile s after) (hapart : Apart s.client sessions)
    (hself : sessions i = s.sessions) (hlater : later i = after.sessions)
    (hothers : ∀ j, j ≠ i → later j = sessions j) : Apart after.client later := by
  cases h with
  | kept =>
      have hsame : later = sessions := by
        funext j
        by_cases hj : j = i
        · rw [hj, hlater, hself]
        · exact hothers j hj
      rwa [hsame]
  | fetched hfetch => exact hapart.fetch hself hfetch hlater hothers

/-- A look-up leaves the standing of all other sessions as it is. -/
theorem Touches.standing?_of_other (h : Touches profile s after)
    (hapart : Apart s.client sessions) (hself : sessions i = s.sessions)
    (hlater : later i = after.sessions) (hothers : ∀ j, j ≠ i → later j = sessions j) {j : ι}
    {q : String} (hother : ¬ (j = i ∧ q = profile)) :
    standing? after.client (later j) q = standing? s.client (sessions j) q := by
  cases h with
  | kept =>
      by_cases hj : j = i
      · rw [hj, hlater, hself]
      · rw [hothers j hj]
  | fetched hfetch => exact hapart.standing?_of_other hself hfetch hlater hothers hother

end Touches

section Get

variable {store : ConfigurationStore Memory.Configurations} {s t : Polling}

/-- A fetch goes by the standing of its session if nothing is made to fail. -/
theorem Undisturbed.fetchedAs (h : Undisturbed s)
    (hclient : store.client = Memory.Configurations.client) (profile : String)
    (options : BackendOptions) :
    FetchedAs s.world.backend profile (store.fetchOne profile options s.world.backend).1
      (store.fetchOne profile options s.world.backend).2 :=
  Memory.Configurations.fetches_standing hclient h.calm (h.apart.granted () profile)
    (store.fetches profile options s.world.backend)

/-- **A look-up touches its own profile only.** If the cache serves it, nothing is touched;
otherwise one fetch of the profile is made. -/
theorem Undisturbed.touches (h : Undisturbed s)
    (hclient : store.client = Memory.Configurations.client) (maxAge : Duration) (profile : String)
    (options : GetOptions) :
    Touches profile s.world.backend
      ((⟨store.source, maxAge⟩ : Provider _).get profile options s).2.world.backend := by
  cases hcached : (⟨store.source, maxAge⟩ : Provider _).cachedValue? profile options s with
  | some value =>
      rw [get_of_cached hcached]
      exact .kept
  | none =>
      rw [(get_of_missed hcached).2.1]
      exact .fetched (h.fetchedAs hclient profile options.backend)

/-- A look-up leaves a provider undisturbed, so a run of them can be followed step by step. -/
theorem Undisturbed.get (h : Undisturbed s)
    (hclient : store.client = Memory.Configurations.client) (maxAge : Duration) (profile : String)
    (options : GetOptions) :
    Undisturbed ((⟨store.source, maxAge⟩ : Provider _).get profile options s).2 := by
  have htouches := h.touches hclient maxAge profile options
  exact ⟨htouches.calm h.calm,
    htouches.apart (i := ()) h.apart rfl rfl fun _ hne => absurd rfl hne⟩

/-- Behind a fetch, sessions that stood alike stand alike. -/
theorem Alike.standing_fetched (h : Alike s t) (hs : Undisturbed s) (ht : Undisturbed t)
    {profile : String} {reply other : Except Error RawValue}
    {after later : ConfigurationStore.State Memory.Configurations}
    (hafter : FetchedAs s.world.backend profile reply after)
    (hlater : FetchedAs t.world.backend profile other later) (q : String) :
    standing? after.client after.sessions q = standing? later.client later.sessions q := by
  by_cases hq : q = profile
  · subst hq
    rw [hafter.standing, hlater.standing, h.standing, h.profiles]
  · rw [hafter.standing?_of_other hs.apart hq, hlater.standing?_of_other ht.apart hq, h.standing]

/-- **Providers that are alike reply alike**, and stay so. Their tokens may differ, since others may
have been given tokens between, but not what the store in memory has delivered for them. -/
theorem Alike.get (h : Alike s t) (hclient : store.client = Memory.Configurations.client)
    (hs : Undisturbed s) (ht : Undisturbed t) (maxAge : Duration) (profile : String)
    (options : GetOptions) :
    let p : Provider (ConfigurationStore.State Memory.Configurations) := ⟨store.source, maxAge⟩
    (p.get profile options s).1 = (p.get profile options t).1 ∧
      Alike (p.get profile options s).2 (p.get profile options t).2 := by
  intro p
  have hcached : p.cachedValue? profile options s = p.cachedValue? profile options t :=
    p.cached?_congr (by rw [h.cache]) h.now
  cases hvalue : p.cachedValue? profile options s with
  | some value =>
      rw [get_of_cached hvalue, get_of_cached (hcached.symm.trans hvalue)]
      exact ⟨rfl, h.profiles, h.now, h.cache, h.standing⟩
  | none =>
      obtain ⟨hreply, hworld, hcache⟩ := get_of_missed hvalue
      obtain ⟨hreply', hworld', hcache'⟩ := get_of_missed (hcached.symm.trans hvalue)
      -- The tokens and the recorded calls differ from here on, so the fetches are compared by
      -- standing.
      have hafter := hs.fetchedAs hclient profile options.backend
      have hlater := ht.fetchedAs hclient profile options.backend
      have hfetched : (store.fetchOne profile options.backend s.world.backend).1 =
          (store.fetchOne profile options.backend t.world.backend).1 := by
        rw [hafter.reply, hlater.reply, h.standing, h.profiles]
      have hbrought : (p.bring (.ofName profile options) s.world).1 =
          (p.bring (.ofName profile options) t.world).1 :=
        congrArg (·.bind (options.transform.apply profile)) hfetched
      have hnow : (p.bring (.ofName profile options) s.world).2.now =
          (p.bring (.ofName profile options) t.world).2.now := h.now
      refine ⟨?_, ?_, ?_, ?_, ?_⟩
      · rw [hreply, hreply', hbrought]
      · rw [hworld, hworld']
        exact hafter.spares.profiles.trans (h.profiles.trans hlater.spares.profiles.symm)
      · rw [hworld, hworld', hnow]
      · rw [hcache, hcache', hbrought, hnow, h.cache]
      · rw [hworld, hworld']
        exact h.standing_fetched hs ht hafter hlater

theorem now_get (store : ConfigurationStore Memory.Configurations) (maxAge : Duration)
    (profile : String) (options : GetOptions) (s : Polling) :
    ((⟨store.source, maxAge⟩ : Provider _).get profile options s).2.world.now = s.world.now :=
  store.timeless.serve (p := ⟨store.source, maxAge⟩) (.get profile options) s

end Get

theorem Alike.refl (s : Polling) : Alike s s := ⟨rfl, rfl, rfl, fun _ => rfl⟩

theorem Alike.of_same {s t u : Polling} (h : Alike s t) (hsame : u.Same s) : Alike u t where
  profiles := by rw [hsame.backend, h.profiles]
  now := hsame.now.trans h.now
  cache := hsame.cache.trans h.cache
  standing profile := by rw [hsame.backend, h.standing]

theorem Alike.trans {s t u : Polling} (hst : Alike s t) (htu : Alike t u) : Alike s u where
  profiles := hst.profiles.trans htu.profiles
  now := hst.now.trans htu.now
  cache := hst.cache.trans htu.cache
  standing profile := (hst.standing profile).trans (htu.standing profile)

/-- A harmless change keeps providers alike. -/
theorem Alike.change {s t : Polling} (h : Alike s t) (hs : Undisturbed s) (ht : Undisturbed t)
    {change : Memory.Configurations → Memory.Configurations}
    (hchange : Memory.Configurations.Harmless change) :
    Alike { s with world.backend.client := change s.world.backend.client }
      { t with world.backend.client := change t.world.backend.client } where
  profiles := by
    obtain ⟨f, hf⟩ := hchange.profiles
    exact (hf _).trans ((congrArg f h.profiles).trans (hf _).symm)
  now := h.now
  cache := h.cache
  standing profile := (hchange.standing?_eq hs.apart () profile).trans
    ((h.standing profile).trans (hchange.standing?_eq ht.apart () profile).symm)

end Provider

namespace Hub

open Provider (Alike Undisturbed)

variable {π ς : Type}

/-! ### The invariant of the hub -/

/-- All configuration providers of a hub are in their places, nothing is made to fail, and the
sessions of all scopes are kept apart. -/
structure Sound (hub : Hub π ς Memory.Configurations) (s : State π ς Memory.Configurations) :
    Prop where
  housed : hub.Housed s
  calm : s.configurations.Calm
  apart : Apart s.configurations s.sessions

/-- An act makes nothing fail and takes no token back. -/
def Act.Harmless : Act π ς Memory.Configurations → Prop
  | .configurations change => Memory.Configurations.Harmless change
  | .operate _ | .parameters _ | .secrets _ | .clock _ => True

variable {hub : Hub π ς Memory.Configurations} {s after : State π ς Memory.Configurations}

/-- Seen on its own, the provider of a scope is undisturbed. -/
theorem Sound.undisturbed (h : hub.Sound s) (scope : Scope) :
    Undisturbed (s.configurationState scope) :=
  ⟨h.calm, h.apart.of_one scope⟩

/-! ### Operations on other families -/

/-- An operation is on a configuration, empties all caches, or is the business of no scope. -/
theorem Operation.cases_configurations (operation : Operation) :
    (∃ scope name options, operation = .getConfiguration scope name options) ∨
      operation = .clearCaches ∨ ∀ scope, operation.configurations? scope = none := by
  rcases operation.kinds with ⟨asked, hasked⟩ | ⟨_, _, rfl⟩ | hconfiguration | hclear
  · exact .inr (.inr hasked.configurations)
  · exact .inr (.inr fun _ => rfl)
  · exact .inl hconfiguration
  · exact .inr (.inl hclear)

/-- Operations on other families leave the configurations and the clock alone. -/
theorem serve_others {π ς κ : Type} (hub : Hub π ς κ) {operation : Operation}
    (h : ∀ scope, operation.configurations? scope = none) (s : State π ς κ) :
    let after := (hub.serve operation s).2
    after.configurations = s.configurations ∧ after.slots = s.slots ∧ after.now = s.now := by
  rcases operation.kinds with ⟨asked, hasked⟩ | ⟨name, options, rfl⟩ | ⟨scope, name, options, rfl⟩ |
    rfl
  · rw [serve_of_parameters hasked]
    exact parameterFamily.on_others (p := hub.parameterProvider) (ParameterStore.timeless _) asked s
  · rw [serve_getSecret]
    exact secretFamily.on_others (p := hub.secretProvider) (SecretStore.timeless _)
      (.get name options) s
  · have hown := h scope
    rw [Operation.configurations?, if_pos rfl] at hown
    cases hown
  · cases h ⟨"", ""⟩

/-! ### Operations on configurations -/

section Configuration

variable {scope : Scope}

/-- Work on the configurations of a scope is seen as a look-up of its provider, and leaves the
sessions and the caches of the others alone. -/
theorem serve_getConfiguration (hhoused : hub.Housed s) (given : scope.Given) (name : String)
    (options : GetOptions) :
    let worked := (hub.configurationProvider (hub.storeOf scope given)).get name options
      (s.configurationState scope)
    let after := (hub.serve (.getConfiguration scope name options) s).2
    (hub.serve (.getConfiguration scope name options) s).1 = .value worked.1 ∧
      (after.configurationState scope).Same worked.2 ∧
      ∀ other, other ≠ scope → after.sessions other = s.sessions other ∧
        after.configurationCache other = s.configurationCache other := by
  intro worked after
  have hserve : hub.serve (.getConfiguration scope name options) s =
      (hub.getConfiguration scope name options s).map .value id := rfl
  have hafter : after = (hub.getConfiguration scope name options s).2 := rfl
  rw [getConfiguration_of_given hhoused given] at hserve hafter
  refine ⟨congrArg Prod.fst hserve, ⟨?_, ?_⟩, fun other hother => ⟨?_, ?_⟩⟩
  · rw [hafter, State.configurationState, State.sessions]
    simp only [Assoc.find?_insert, if_true, Option.map_some, Option.getD_some]
    rfl
  · rw [hafter, State.configurationState, State.configurationCache]
    simp only [Assoc.find?_insert, if_true, Option.map_some, Option.getD_some]
    rfl
  · rw [hafter, State.sessions]
    simp only [Assoc.find?_insert, if_neg hother]
    rfl
  · rw [hafter, State.configurationCache]
    simp only [Assoc.find?_insert, if_neg hother]
    rfl

variable (hclient : hub.backends.configurations = Memory.Configurations.client)

include hclient

/-- What work on the configurations of a scope does to the store in memory. -/
theorem Sound.touches (h : hub.Sound s) (given : scope.Given) (name : String)
    (options : GetOptions) :
    let after := (hub.serve (.getConfiguration scope name options) s).2
    Provider.Touches name ⟨s.configurations, s.sessions scope⟩
        ⟨after.configurations, after.sessions scope⟩ ∧ after.now = s.now := by
  intro after
  obtain ⟨-, hsame, -⟩ := serve_getConfiguration h.housed given name options
  constructor
  · have hstore : (hub.storeOf scope given).client = Memory.Configurations.client := hclient
    have htouches := (h.undisturbed scope).touches hstore hub.settings.maxAge name options
    have hbackend : (⟨after.configurations, after.sessions scope⟩ : ConfigurationStore.State _) =
        ((hub.configurationProvider (hub.storeOf scope given)).get name options
          (s.configurationState scope)).2.world.backend := hsame.backend
    rw [hbackend]
    exact htouches
  · exact hsame.now.trans (Provider.now_get (hub.storeOf scope given) hub.settings.maxAge name
      options (s.configurationState scope))

/-- Work on the configurations of a scope keeps the sessions of all scopes apart. -/
theorem Sound.getConfiguration (h : hub.Sound s) (scope : Scope) (name : String)
    (options : GetOptions) :
    hub.Sound (hub.serve (.getConfiguration scope name options) s).2 := by
  by_cases given : scope.Given
  · obtain ⟨htouches, -⟩ := h.touches hclient given name options
    obtain ⟨-, -, hothers⟩ := serve_getConfiguration h.housed given name options
    exact ⟨h.housed.serve _, htouches.calm h.calm,
      htouches.apart h.apart rfl rfl fun other hother => (hothers other hother).1⟩
  · have hserve : (hub.serve (.getConfiguration scope name options) s).2 =
        { s with made.configurations := s.made.configurations + 1 } :=
      congrArg Prod.snd (getConfiguration_of_not_given h.housed given name options)
    rw [hserve]
    exact ⟨h.housed, h.calm, h.apart⟩

/-- Work on the configurations of another scope leaves the provider of this one as it is. -/
theorem Sound.alike_getConfiguration (h : hub.Sound s) {other : Scope} (hother : other ≠ scope)
    (name : String) (options : GetOptions) :
    Alike ((hub.serve (.getConfiguration other name options) s).2.configurationState scope)
      (s.configurationState scope) := by
  by_cases given : other.Given
  · obtain ⟨-, -, hothers⟩ := serve_getConfiguration h.housed given name options
    obtain ⟨hsessions, hcache⟩ := hothers scope hother.symm
    obtain ⟨htouches, hnow⟩ := h.touches hclient given name options
    refine ⟨htouches.profiles, hnow, hcache, fun profile => ?_⟩
    exact htouches.standing?_of_other h.apart rfl rfl (fun j hj => (hothers j hj).1) fun hsame =>
      hother hsame.1.symm
  · have hserve : (hub.serve (.getConfiguration other name options) s).2 =
        { s with made.configurations := s.made.configurations + 1 } :=
      congrArg Prod.snd (getConfiguration_of_not_given h.housed given name options)
    rw [hserve]
    exact ⟨rfl, rfl, rfl, fun _ => rfl⟩

end Configuration

/-! ### Emptied caches -/

theorem Emptied.sessions (h : Emptied s after) : after.sessions = s.sessions := by
  funext scope
  rw [State.sessions, h.slots scope, State.sessions]
  cases s.slots.find? scope <;> rfl

/-- Emptied caches are seen as an emptied cache of the provider of a scope. -/
theorem Emptied.configurationState (h : Emptied s after) (scope : Scope)
    (p : Provider (ConfigurationStore.State Memory.Configurations)) :
    (after.configurationState scope).Same (p.clear (s.configurationState scope)) := by
  constructor
  · rw [State.configurationState, h.configurations, h.now, h.sessions]
    rfl
  · exact h.caches.2.2 scope

/-! ### Acts -/

/-- The provider of a scope is seen as it was if nothing that belongs to it has changed. -/
theorem configurationState_same (hbackend : after.configurations = s.configurations)
    (hslots : after.slots = s.slots) (hnow : after.now = s.now) (scope : Scope) :
    (after.configurationState scope).Same (s.configurationState scope) := by
  constructor
  · rw [State.configurationState, hbackend, hnow, State.sessions, hslots]
    rfl
  · rw [State.configurationState, State.configurationCache, hslots]
    rfl

/-- An operation keeps the sessions of all scopes apart. -/
theorem Sound.serve (hclient : hub.backends.configurations = Memory.Configurations.client)
    (h : hub.Sound s) (operation : Operation) : hub.Sound (hub.serve operation s).2 := by
  rcases operation.cases_configurations with ⟨scope, name, options, rfl⟩ | rfl | hothers
  · exact h.getConfiguration hclient scope name options
  · have hemptied : Emptied s (hub.serve .clearCaches s).2 := hub.clearCaches_spec s
    refine ⟨h.housed.serve _, ?_, ?_⟩
    · rw [hemptied.configurations]
      exact h.calm
    · rw [hemptied.configurations, hemptied.sessions]
      exact h.apart
  · obtain ⟨hbackend, hslots, -⟩ := serve_others hub hothers s
    refine ⟨h.housed.serve _, ?_, ?_⟩
    · rw [hbackend]
      exact h.calm
    · have hsessions : (hub.serve operation s).2.sessions = s.sessions := by
        funext scope
        rw [State.sessions, hslots, State.sessions]
      rw [hbackend, hsessions]
      exact h.apart

/-- **An act keeps the sessions of all scopes apart**, so that no scope ever presents a token of
another one. What happens to the store from outside has to be harmless for that. -/
theorem Sound.next (hclient : hub.backends.configurations = Memory.Configurations.client)
    (h : hub.Sound s) {act : Act π ς Memory.Configurations} (hact : act.Harmless) :
    hub.Sound (hub.machine.next s act) := by
  cases act with
  | operate operation => exact h.serve hclient operation
  | configurations change => exact ⟨h.housed, hact.calm _ h.calm, hact.apart h.apart⟩
  | parameters | secrets | clock => exact ⟨h.housed, h.calm, h.apart⟩

/-- An act that is not the business of a scope leaves its provider as it is. -/
theorem Sound.alike_of_other (hclient : hub.backends.configurations = Memory.Configurations.client)
    (h : hub.Sound s) {scope : Scope} {act : Act π ς Memory.Configurations}
    (hact : act.configurations? scope = none) :
    Alike ((hub.machine.next s act).configurationState scope) (s.configurationState scope) := by
  cases act with
  | operate operation =>
      -- Of the operations on configurations, only those for other scopes are left, and these use
      -- the store in memory that this scope polls, too.
      have hnone : operation.configurations? scope = none := Option.map_eq_none_iff.mp hact
      rcases operation.cases_configurations with ⟨other, name, options, rfl⟩ | rfl | hothers
      · have hother : other ≠ scope := by
          rintro rfl
          rw [Operation.configurations?, if_pos rfl] at hnone
          cases hnone
        exact h.alike_getConfiguration hclient hother name options
      · cases hnone
      · obtain ⟨hbackend, hslots, hnow⟩ := serve_others hub hothers s
        exact (Alike.refl _).of_same (configurationState_same hbackend hslots hnow scope)
  | parameters | secrets => exact .refl _
  | configurations | clock => cases hact

/-! ### The provider of a scope -/

/-- The provider of a scope in a hub, and one on its own that is like it: this is the invariant
under which the two reply the same. -/
structure Mirrored (hub : Hub π ς Memory.Configurations) (scope : Scope)
    (s : State π ς Memory.Configurations) (t : Provider.Polling) : Prop where
  sound : hub.Sound s
  undisturbed : Undisturbed t
  alike : Alike (s.configurationState scope) t

variable {scope : Scope} {t : Provider.Polling}

/-- A retrieval from a scope is replied to alike. -/
theorem Mirrored.get (hclient : hub.backends.configurations = Memory.Configurations.client)
    (given : scope.Given) (h : hub.Mirrored scope s t) (name : String) (options : GetOptions) :
    let p := hub.configurationProvider (hub.storeOf scope given)
    hub.Mirrored scope (hub.serve (.getConfiguration scope name options) s).2
        (p.get name options t).2 ∧
      (hub.serve (.getConfiguration scope name options) s).1 = .value (p.get name options t).1 := by
  intro p
  have hstore : (hub.storeOf scope given).client = Memory.Configurations.client := hclient
  obtain ⟨hreply, hsame, -⟩ := serve_getConfiguration h.sound.housed given name options
  obtain ⟨hreplies, hafter⟩ := h.alike.get hstore (h.sound.undisturbed scope) h.undisturbed
    hub.settings.maxAge name options
  refine ⟨⟨h.sound.getConfiguration hclient scope name options,
    h.undisturbed.get hstore hub.settings.maxAge name options, hafter.of_same hsame⟩, ?_⟩
  exact hreply.trans (congrArg Reply.value hreplies)

/-- To empty all caches empties that of the provider of a scope. -/
theorem Mirrored.clear (hclient : hub.backends.configurations = Memory.Configurations.client)
    (h : hub.Mirrored scope s t) (p : Provider (ConfigurationStore.State Memory.Configurations)) :
    hub.Mirrored scope (hub.serve .clearCaches s).2 (p.clear t) where
  sound := h.sound.serve hclient .clearCaches
  undisturbed := ⟨h.undisturbed.calm, h.undisturbed.apart⟩
  alike :=
    have hcleared : Alike (p.clear (s.configurationState scope)) (p.clear t) :=
      ⟨h.alike.profiles, h.alike.now, rfl, h.alike.standing⟩
    hcleared.of_same ((hub.clearCaches_spec s).configurationState scope p)

/-- A harmless change of the backend is the same for both. -/
theorem Mirrored.change (h : hub.Mirrored scope s t)
    {change : Memory.Configurations → Memory.Configurations}
    (hchange : Memory.Configurations.Harmless change) :
    hub.Mirrored scope { s with configurations := change s.configurations }
      { t with world.backend.client := change t.world.backend.client } where
  sound := ⟨h.sound.housed, hchange.calm _ h.sound.calm, hchange.apart h.sound.apart⟩
  undisturbed := ⟨hchange.calm _ h.undisturbed.calm, hchange.apart h.undisturbed.apart⟩
  alike := h.alike.change (h.sound.undisturbed scope) h.undisturbed hchange

theorem Mirrored.clock (h : hub.Mirrored scope s t) (now : Instant) :
    hub.Mirrored scope { s with now } { t with world.now := now } where
  sound := ⟨h.sound.housed, h.sound.calm, h.sound.apart⟩
  undisturbed := ⟨h.undisturbed.calm, h.undisturbed.apart⟩
  alike := ⟨h.alike.profiles, rfl, h.alike.cache, h.alike.standing⟩

/-- **A provider on its own follows the hub** in all that concerns the configurations of a scope,
although the two poll different stores. -/
theorem configurations_follow (hclient : hub.backends.configurations = Memory.Configurations.client)
    (given : scope.Given) :
    (hub.configurationProvider (hub.storeOf scope given)).machine.Follows hub.machine Act.Harmless
      (Act.configurations? scope) (share (Operation.configurations? scope))
      (hub.Mirrored scope) where
  own {s t act step} hact h hstep := by
    cases act with
    | operate operation =>
        obtain ⟨request, hrequest, rfl⟩ := Option.map_eq_some_iff.mp hstep
        rcases operation.cases_configurations with ⟨other, name, options, rfl⟩ | rfl | hothers
        · rw [Operation.configurations?, Option.ite_none_right_eq_some] at hrequest
          obtain ⟨rfl, hget⟩ := hrequest
          obtain rfl := Option.some.inj hget
          obtain ⟨hafter, hreply⟩ := h.get hclient given name options
          refine ⟨hafter, ?_⟩
          simp only [machine, Option.bind_some, share, Operation.configurations?, if_true, hreply]
          rfl
        · obtain rfl := Option.some.inj hrequest
          exact ⟨h.clear hclient _, rfl⟩
        · rw [hothers scope] at hrequest
          cases hrequest
    | configurations change =>
        obtain rfl := Option.some.inj hstep
        exact ⟨h.change hact, rfl⟩
    | clock now =>
        obtain rfl := Option.some.inj hstep
        exact ⟨h.clock now, rfl⟩
    | parameters | secrets => cases hstep
  other {s t act} hact h hstep := by
    refine ⟨⟨h.sound.next hclient hact, h.undisturbed,
      (h.sound.alike_of_other hclient hstep).trans h.alike⟩, ?_⟩
    cases act with
    | operate operation =>
        have hnone : operation.configurations? scope = none := Option.map_eq_none_iff.mp hstep
        rw [machine, Option.bind_some, share, hnone]
        rfl
    | parameters | secrets | configurations | clock => rfl

end Hub

end CachedParameters
