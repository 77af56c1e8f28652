import CachedParameters.Hub.Retrieval
import CachedParameters.Proofs.Assoc
import CachedParameters.Proofs.Provider.Transcripts

/-!
# What the operations of a hub do

An operation of a hub works on the provider of one family, which it makes if need be, and leaves the
other families alone. To empty the caches is an operation on all of them. The lemmas here say once
what each operation does to the state of a hub, and no later proof opens the operations again.

## Main results

- `Hub.Family.on_eq`, `Hub.onConfigurations_of_given`: what work on a family does.
- `Hub.clearCaches_spec`: what emptying the caches does.
-/

namespace CachedParameters

namespace Hub

variable {π ς κ σ α : Type}

/-! ### Operations -/

/-- An operation of a hub: to retrieve parameters, a secret or a configuration profile, or to empty
the cache of every provider that is made. -/
inductive Operation where
  | getParameter (name : String) (options : GetOptions)
  | getParameters (path : String) (options : GetOptions)
  | getParametersByName (parameters : List (String × Overrides)) (options : BatchOptions)
  | getSecret (name : String) (options : GetOptions)
  | getConfiguration (scope : Scope) (name : String) (options : GetOptions)
  | clearCaches

/-- Carries out an operation of the hub. All results are put into one type of replies, so that a run
is a list of them. -/
def serve (hub : Hub π ς κ) (operation : Operation) (s : State π ς κ) : Reply × State π ς κ :=
  match operation with
  | .getParameter name options => (hub.getParameter name options s).map .value id
  | .getParameters path options => (hub.getParameters path options s).map .values id
  | .getParametersByName parameters options =>
    (hub.getParametersByName parameters options s).map .batch id
  | .getSecret name options => (hub.getSecret name options s).map .value id
  | .getConfiguration scope name options =>
    (hub.getConfiguration scope name options s).map .value id
  | .clearCaches => (.cleared, hub.clearCaches s)

/-! ### Families with one provider -/

/-- How many providers are made by opening one that is there or not. -/
def opened {β : Type} (slot : Option β) : ℕ := if slot.isSome then 0 else 1

namespace Part

/-- What there is of a family behind work of its provider. -/
def worked (part : Part σ) (after : Provider.State σ) : Part σ where
  backend := after.world.backend
  cache? := some after.cache
  made := part.made + opened part.cache?

/-- What there is of a family with nothing in the cache of its provider. -/
def emptied (part : Part σ) : Part σ :=
  { part with cache? := part.cache?.map fun _ => .empty }

/-- A provider that is not made has nothing to lose. -/
theorem emptied_of_none {part : Part σ} (h : part.cache? = none) : part.emptied = part := by
  obtain ⟨backend, cache?, made⟩ := part
  obtain rfl : cache? = none := h
  rfl

end Part

namespace Family

variable (family : Family π ς κ σ)

/-- The provider of a family, which has kept nothing yet if it is not made. -/
def state (s : State π ς κ) : Provider.State σ :=
  ⟨⟨(family.part s).backend, s.now, []⟩, (family.part s).cache?.getD .empty, s.log⟩

/-- **Work on a family** is the work of its provider, which is made unless it is there. -/
theorem on_eq (work : Provider.State σ → α × Provider.State σ) (s : State π ς κ) :
    family.on work s =
      ((work (family.state s)).1,
        family.replace ((family.part s).worked (work (family.state s)).2)
          { s with
            now := (work (family.state s)).2.world.now
            log := (work (family.state s)).2.log }) := by
  cases hcache : (family.part s).cache? with
  | some cache =>
      simp only [on, openIn, state, hcache, Part.worked, opened]
      rfl
  | none =>
      obtain ⟨-, -, hnow, hlog⟩ := family.others
        { family.part s with cache? := some .empty, made := (family.part s).made + 1 } s
      simp only [on, openIn, state, hcache, Part.worked, opened, family.part_replace,
        family.replace_replace, hnow, hlog]
      rfl

/-- Behind work on a family its provider is seen as it left the work. -/
theorem state_on (work : Provider.State σ → α × Provider.State σ) (s : State π ς κ) :
    (family.state (family.on work s).2).Same (work (family.state s)).2 := by
  obtain ⟨-, -, hnow, -⟩ := family.others ((family.part s).worked (work (family.state s)).2)
    { s with
      now := (work (family.state s)).2.world.now
      log := (work (family.state s)).2.log }
  rw [on_eq, state, part_replace, hnow]
  exact ⟨rfl, rfl⟩

/-- A provider is seen as it was if nothing that belongs to it has changed. -/
theorem state_same {s after : State π ς κ} (hpart : family.part after = family.part s)
    (hnow : after.now = s.now) : (family.state after).Same (family.state s) := by
  rw [state, state, hpart, hnow]
  exact ⟨rfl, rfl⟩

/-- An emptied cache is seen as one that its provider has emptied. -/
theorem state_emptied {s after : State π ς κ} (hpart : family.part after = (family.part s).emptied)
    (hnow : after.now = s.now) (p : Provider σ) :
    (family.state after).Same (p.clear (family.state s)) := by
  rw [state, hpart, hnow]
  refine ⟨rfl, ?_⟩
  rw [Part.emptied]
  cases (family.part s).cache? <;> rfl

/-- The cache of a provider is emptied if the provider is made. -/
theorem clearMade_eq (p : Provider σ) (s : State π ς κ) :
    ∃ log, family.clearMade p s = family.replace (family.part s).emptied { s with log } := by
  cases hcache : (family.part s).cache? with
  | none =>
      refine ⟨s.log, ?_⟩
      rw [clearMade, hcache, Part.emptied_of_none hcache]
      exact (family.replace_part s).symm
  | some cache =>
      refine ⟨(p.clear (family.state s)).log, ?_⟩
      simp only [clearMade, clear, on_eq, hcache, Option.isSome_some, if_true, Part.worked,
        Part.emptied, opened]
      rfl

end Family

namespace State

/-- The parameter provider, which has kept nothing yet if it is not made. -/
def parameterState (s : State π ς κ) : Provider.State π := parameterFamily.state s

/-- The secret provider, which has kept nothing yet if it is not made. -/
def secretState (s : State π ς κ) : Provider.State ς := secretFamily.state s

end State

/-! ### Configurations -/

/-- Both parts of a scope are given. -/
def Scope.Given (scope : Scope) : Prop := scope.application ≠ "" ∧ scope.environment ≠ ""

instance (scope : Scope) : Decidable scope.Given :=
  inferInstanceAs (Decidable (scope.application ≠ "" ∧ scope.environment ≠ ""))

def storeOf (hub : Hub π ς κ) (scope : Scope) (given : scope.Given) : ConfigurationStore κ :=
  ⟨hub.backends.configurations, scope.application, scope.environment, given⟩

/-- Every configuration provider that is made is over the store of its scope. -/
def Housed (hub : Hub π ς κ) (s : State π ς κ) : Prop :=
  ∀ scope slot, s.slots.find? scope = some slot →
    ∃ given : scope.Given, slot.store = hub.storeOf scope given

namespace State

/-- The sessions of the configuration provider of a scope. -/
def sessions (s : State π ς κ) (scope : Scope) : Dict Session :=
  ((s.slots.find? scope).map (·.sessions)).getD .empty

/-- The cache of the configuration provider of a scope. -/
def configurationCache (s : State π ς κ) (scope : Scope) : Cache :=
  ((s.slots.find? scope).map (·.cache)).getD .empty

/-- The configuration provider of a scope, which has kept nothing yet if it is not made. -/
def configurationState (s : State π ς κ) (scope : Scope) :
    Provider.State (ConfigurationStore.State κ) :=
  ⟨⟨⟨s.configurations, s.sessions scope⟩, s.now, []⟩, s.configurationCache scope, s.log⟩

end State

/-- Lets the configuration provider of a scope work, which is made unless it is there. -/
def onConfigurations (hub : Hub π ς κ) (scope : Scope)
    (work : Provider (ConfigurationStore.State κ) → Provider.State (ConfigurationStore.State κ) →
      α × Provider.State (ConfigurationStore.State κ))
    (s : State π ς κ) : Except Error α × State π ς κ :=
  match hub.openConfigurations scope s with
  | (.error e, s) => (.error e, s)
  | (.ok slot, s) => ((hub.onSlot scope slot work s).map .ok id)

/-- To retrieve a configuration is work for the provider of its scope. -/
theorem getConfiguration_eq (hub : Hub π ς κ) (scope : Scope) (name : String)
    (options : GetOptions) (s : State π ς κ) :
    hub.getConfiguration scope name options s =
      (hub.onConfigurations scope (fun provider => provider.get name options) s).map
        (Except.bind · id) id := by
  rw [getConfiguration, onConfigurations]
  rcases hub.openConfigurations scope s with ⟨outcome, after⟩
  cases outcome <;> rfl

/-- **Work on the configurations of a scope** is the work of its provider, which is made unless it
is there. -/
theorem onConfigurations_of_given {hub : Hub π ς κ} {s : State π ς κ} (h : hub.Housed s)
    {scope : Scope} (given : scope.Given)
    (work : Provider (ConfigurationStore.State κ) → Provider.State (ConfigurationStore.State κ) →
      α × Provider.State (ConfigurationStore.State κ)) :
    let worked := work (hub.configurationProvider (hub.storeOf scope given))
      (s.configurationState scope)
    hub.onConfigurations scope work s =
      (.ok worked.1,
        { s with
          configurations := worked.2.world.backend.client
          now := worked.2.world.now
          slots := s.slots.insert scope
            ⟨hub.storeOf scope given, worked.2.world.backend.sessions, worked.2.cache⟩
          made.configurations := s.made.configurations + opened (s.slots.find? scope)
          log := worked.2.log }) := by
  cases hslot : s.slots.find? scope with
  | some slot =>
      obtain ⟨_, hstore⟩ := h scope slot hslot
      simp only [onConfigurations, openConfigurations, hslot, onSlot, hstore,
        State.configurationState, State.sessions, State.configurationCache]
      rfl
  | none =>
      have hmake : ConfigurationStore.make hub.backends.configurations scope.application
          scope.environment = .ok (hub.storeOf scope given) := dif_pos given
      simp only [onConfigurations, openConfigurations, hslot, hmake, onSlot,
        State.configurationState, State.sessions, State.configurationCache, Assoc.insert_insert]
      rfl

/-- A scope of which a part is missing is refused. A client was made for it by then. -/
theorem onConfigurations_of_not_given {hub : Hub π ς κ} {s : State π ς κ} (h : hub.Housed s)
    {scope : Scope} (blank : ¬ scope.Given)
    (work : Provider (ConfigurationStore.State κ) → Provider.State (ConfigurationStore.State κ) →
      α × Provider.State (ConfigurationStore.State κ)) :
    hub.onConfigurations scope work s =
      (.error .blankApplication,
        { s with made.configurations := s.made.configurations + 1 }) := by
  have hslot : s.slots.find? scope = none := by
    cases hslot : s.slots.find? scope with
    | none => rfl
    | some slot => exact absurd (h scope slot hslot).1 blank
  have hmake : ConfigurationStore.make hub.backends.configurations scope.application
      scope.environment = .error .blankApplication := dif_neg blank
  simp only [onConfigurations, openConfigurations, hslot, hmake]

/-- What a retrieval of a configuration does to a hub. -/
theorem getConfiguration_of_given {hub : Hub π ς κ} {s : State π ς κ} (h : hub.Housed s)
    {scope : Scope} (given : scope.Given) (name : String) (options : GetOptions) :
    let worked := (hub.configurationProvider (hub.storeOf scope given)).get name options
      (s.configurationState scope)
    hub.getConfiguration scope name options s =
      (worked.1,
        { s with
          configurations := worked.2.world.backend.client
          now := worked.2.world.now
          slots := s.slots.insert scope
            ⟨hub.storeOf scope given, worked.2.world.backend.sessions, worked.2.cache⟩
          made.configurations := s.made.configurations + opened (s.slots.find? scope)
          log := worked.2.log }) := by
  simp only [getConfiguration_eq, onConfigurations_of_given h given]
  rfl

/-- A retrieval is refused with the scope: a client is made for it all the same, but no provider. -/
theorem getConfiguration_of_not_given {hub : Hub π ς κ} {s : State π ς κ} (h : hub.Housed s)
    {scope : Scope} (blank : ¬ scope.Given) (name : String) (options : GetOptions) :
    hub.getConfiguration scope name options s =
      (.error .blankApplication,
        { s with made.configurations := s.made.configurations + 1 }) := by
  simp only [getConfiguration_eq, onConfigurations_of_not_given h blank]
  rfl

/-! ### Emptying the caches -/

/-- A configuration provider with nothing in its cache. -/
def ConfigurationSlot.emptied (slot : ConfigurationSlot κ) : ConfigurationSlot κ :=
  { slot with cache := .empty }

/-- All caches were emptied, and nothing else was done but to tell of it. Configuration providers
keep their sessions. -/
structure Emptied (s after : State π ς κ) : Prop where
  parameters : parameterFamily.part after = (parameterFamily.part s).emptied
  secrets : secretFamily.part after = (secretFamily.part s).emptied
  slots (scope : Scope) : after.slots.find? scope = (s.slots.find? scope).map (·.emptied)
  size : after.slots.size = s.slots.size
  configurations : after.configurations = s.configurations
  made : after.made.configurations = s.made.configurations
  now : after.now = s.now

/-- Where all caches were emptied, no provider has anything in its cache. -/
theorem Emptied.caches {s after : State π ς κ} (h : Emptied s after) :
    after.parameterState.cache = .empty ∧ after.secretState.cache = .empty ∧
      ∀ scope, (after.configurationState scope).cache = .empty := by
  refine ⟨?_, ?_, fun scope => ?_⟩
  · rw [State.parameterState, Family.state, h.parameters, Part.emptied]
    cases (parameterFamily.part s).cache? <;> rfl
  · rw [State.secretState, Family.state, h.secrets, Part.emptied]
    cases (secretFamily.part s).cache? <;> rfl
  · rw [State.configurationState, State.configurationCache, h.slots scope]
    cases s.slots.find? scope <;> rfl

/-- Emptying the cache of one configuration provider after another. The induction is on the
providers still to come; each of them is in place, so none is added. -/
theorem foldl_clear_eq (hub : Hub π ς κ) (entries : List (Scope × ConfigurationSlot κ))
    (hdistinct : (entries.map (·.1)).Nodup) (s : State π ς κ)
    (hplace : ∀ entry ∈ entries, (s.slots.find? entry.1).isSome = true) :
    ∃ slots log,
      entries.foldl (fun s entry =>
        (hub.onSlot entry.1 entry.2 (fun provider inner => ((), provider.clear inner)) s).2) s =
          { s with slots, log } ∧
      slots.size = s.slots.size ∧
      ∀ scope, slots.find? scope =
        ((entries.lookup scope).map (·.emptied)).or (s.slots.find? scope) := by
  induction entries generalizing s with
  | nil => exact ⟨s.slots, s.log, rfl, rfl, fun _ => rfl⟩
  | cons entry rest ih =>
      obtain ⟨scope, slot⟩ := entry
      obtain ⟨hfirst, hrest⟩ := List.nodup_cons.mp hdistinct
      obtain ⟨hhere, hthere⟩ := List.forall_mem_cons.mp hplace
      obtain ⟨log, hslot⟩ : ∃ log, (hub.onSlot scope slot
          (fun provider inner => ((), provider.clear inner)) s).2 =
            { s with slots := s.slots.insert scope slot.emptied, log } := ⟨_, rfl⟩
      have hplaced : ∀ entry ∈ rest,
          ((s.slots.insert scope slot.emptied).find? entry.1).isSome = true := by
        intro entry hentry
        rw [Assoc.find?_insert]
        split
        · rfl
        · exact hthere entry hentry
      obtain ⟨slots, last, hfold, hsize, hfind⟩ :=
        ih hrest { s with slots := s.slots.insert scope slot.emptied, log } hplaced
      refine ⟨slots, last, ?_, ?_, fun other => ?_⟩
      · rw [List.foldl_cons, hslot, hfold]
      · rw [hsize, Assoc.size_insert, if_pos hhere]
        rfl
      · rw [hfind other, Assoc.find?_insert, List.lookup_cons]
        by_cases hother : other = scope
        · subst hother
          have hnone : rest.lookup other = none := by
            rw [List.lookup_eq_none_iff]
            rintro entry hentry
            exact bne_iff_ne.mpr fun hsame =>
              hfirst (List.mem_map.mpr ⟨entry, hentry, hsame.symm⟩)
          rw [hnone, if_pos rfl, beq_self_eq_true]
          rfl
        · rw [if_neg hother, beq_eq_false_iff_ne.mpr hother]

/-- Emptying the caches of the parameter provider and of the secret provider, if they are made. -/
theorem clearMade_clearMade_eq (hub : Hub π ς κ) (s : State π ς κ) :
    ∃ log, secretFamily.clearMade hub.secretProvider
        (parameterFamily.clearMade hub.parameterProvider s) =
      { s with
        parameterCache := s.parameterCache.map fun _ => .empty
        secretCache := s.secretCache.map fun _ => .empty
        log } := by
  obtain ⟨first, hparameters⟩ := parameterFamily.clearMade_eq hub.parameterProvider s
  obtain ⟨second, hsecrets⟩ := secretFamily.clearMade_eq hub.secretProvider
    (parameterFamily.replace (parameterFamily.part s).emptied { s with log := first })
  refine ⟨second, ?_⟩
  rw [hparameters, hsecrets]
  rfl

/-- **Emptying the caches** empties the cache of every provider that is made, and does nothing
else. -/
theorem clearCaches_spec (hub : Hub π ς κ) (s : State π ς κ) : Emptied s (hub.clearCaches s) := by
  obtain ⟨log, hboth⟩ := hub.clearMade_clearMade_eq s
  obtain ⟨slots, last, hfold, hsize, hfind⟩ := hub.foldl_clear_eq s.slots.entries s.slots.distinct
    { s with
      parameterCache := s.parameterCache.map fun _ => .empty
      secretCache := s.secretCache.map fun _ => .empty
      log } fun entry hentry => by
        rw [Assoc.find?_of_mem hentry]
        rfl
  have hall : hub.clearCaches s =
      { s with
        parameterCache := s.parameterCache.map fun _ => .empty
        secretCache := s.secretCache.map fun _ => .empty
        slots
        log := last } := by
    rw [clearCaches, hboth]
    exact hfold
  rw [hall]
  refine ⟨rfl, rfl, fun scope => ?_, hsize, rfl, rfl, rfl⟩
  rw [hfind scope]
  change ((s.slots.find? scope).map (·.emptied)).or (s.slots.find? scope) = _
  cases s.slots.find? scope <;> rfl

end Hub

end CachedParameters
