import CachedParameters.Store.Configurations

/-!
# The calls of a configuration store

To say which calls a fetch makes, the client is logged: it answers as before, and every call is
written down with its answer. `Fetches` gives the courses that a fetch can take. A token is held by
the open session or comes from a new one, and then one poll decides whether the session goes on.
That a fetch takes one of these courses, logged or not, is the one fact about `fetchOne` that
everything else builds on.

## Main results

- `ConfigurationStore.fetches`: the courses of a fetch, with the calls that it makes.
- `ConfigurationStore.fetchOne_logged`: being logged changes nothing.
-/

namespace CachedParameters

/-- A call to the client of a configuration store, with its answer: a session was to be opened, or a
token was presented. -/
inductive Contact where
  | start (application environment profile : String) (options : BackendOptions)
    (outcome : Except Error String)
  | poll (token : String) (options : BackendOptions)
    (outcome : Except Error LatestConfiguration)

/-- A client, and the calls that it has seen so far, the oldest first. -/
structure Logged (κ : Type) where
  client : κ
  contacts : List Contact

variable {κ α : Type}

/-- Makes a call and writes it down with its answer. -/
def Call.logged (contact : Except Error α → Contact) (call : Call κ α) : Call (Logged κ) α :=
  fun s =>
    let (outcome, client) := call s.client
    (outcome, ⟨client, s.contacts ++ [contact outcome]⟩)

/-- A client that writes down the calls made to it. -/
def ConfigurationClient.logged (client : ConfigurationClient κ) :
    ConfigurationClient (Logged κ) where
  startSession application environment profile options :=
    (client.startSession application environment profile options).logged
      (.start application environment profile options)
  getLatest token options := (client.getLatest token options).logged (.poll token options)

namespace ConfigurationStore

def logged (store : ConfigurationStore κ) : ConfigurationStore (Logged κ) :=
  { store with client := store.client.logged }

/-- The state of a store, with the calls its client has seen so far. -/
def State.log (contacts : List Contact) (s : State κ) : State (Logged κ) :=
  ⟨⟨s.client, contacts⟩, s.sessions⟩

/-- The calls that a fetch makes: what the client sees of it. -/
def contacts (store : ConfigurationStore κ) (profile : String) (options : BackendOptions)
    (s : State κ) : List Contact :=
  (store.logged.fetchOne profile options (s.log [])).2.client.contacts

/-! ### The courses of a fetch -/

/-- How a fetch comes by a token: the calls it makes for that, the token, and the client behind
them. The open session has one, and where there is none, a new session gives one. -/
inductive Obtains (store : ConfigurationStore κ) (profile : String) (options : BackendOptions)
    (s : State κ) : List Contact → String → κ → Prop where
  | held {session : Session} : s.sessions.get? profile = some session →
      Obtains store profile options s [] session.token s.client
  | started {token : String} {client : κ} : s.sessions.get? profile = none →
      store.client.startSession store.application store.environment profile options s.client =
        (.ok token, client) →
      Obtains store profile options s
        [.start store.application store.environment profile options (.ok token)] token client

/-- What a fetch can come to: the calls it makes, its reply, and the state behind it. No session can
be opened, the poll fails and the session is dropped, or the poll succeeds and the session goes on
with the token that it brought. -/
inductive Fetches (store : ConfigurationStore κ) (profile : String) (options : BackendOptions)
    (s : State κ) : List Contact → Except Error RawValue → State κ → Prop where
  | unopened {e : Error} {client : κ} : s.sessions.get? profile = none →
      store.client.startSession store.application store.environment profile options s.client =
        (.error e, client) →
      Fetches store profile options s
        [.start store.application store.environment profile options (.error e)] (.error e)
        ⟨client, s.sessions⟩
  | dropped {before : List Contact} {token : String} {client after : κ} {e : Error} :
      Obtains store profile options s before token client →
      store.client.getLatest token options client = (.error e, after) →
      Fetches store profile options s (before ++ [.poll token options (.error e)]) (.error e)
        ⟨after, s.sessions.erase profile⟩
  | polled {before : List Contact} {token : String} {client after : κ}
      {latest : LatestConfiguration} {session : Session} :
      Obtains store profile options s before token client →
      store.client.getLatest token options client = (.ok latest, after) →
      Session.renew (s.sessions.get? profile) latest = session →
      Fetches store profile options s (before ++ [.poll token options (.ok latest)])
        (.ok (.ofBytes session.last)) ⟨after, s.sessions.insert profile session⟩

variable (store : ConfigurationStore κ) (profile : String) (options : BackendOptions)
  (s : State κ)

/-- With a token in hand, a fetch takes one of the courses, logged or not. -/
theorem exists_fetches_of_obtains {before : List Contact} {token : String} {client : κ}
    (h : Obtains store profile options s before token client)
    (htoken : store.token profile options s = (.ok token, ⟨client, s.sessions⟩))
    (hlogged : ∀ seen, store.logged.token profile options (s.log seen) =
      (.ok token, ⟨⟨client, seen ++ before⟩, s.sessions⟩)) :
    ∃ contacts reply after, Fetches store profile options s contacts reply after ∧
      store.fetchOne profile options s = (reply, after) ∧
      ∀ seen, store.logged.fetchOne profile options (s.log seen) =
        (reply, after.log (seen ++ contacts)) := by
  rcases hpoll : store.client.getLatest token options client with ⟨outcome, after⟩
  have hseen : ∀ seen, store.logged.client.getLatest token options ⟨client, seen ++ before⟩ =
      (outcome, ⟨after, seen ++ (before ++ [.poll token options outcome])⟩) := by
    intro seen
    rw [← List.append_assoc]
    simp only [logged, ConfigurationClient.logged, Call.logged, hpoll]
  cases outcome with
  | error e =>
      refine ⟨_, _, _, .dropped h hpoll, ?_, fun seen => ?_⟩
      · simp only [fetchOne, htoken, hpoll]
      · simp only [fetchOne, hlogged seen, hseen seen]
        rfl
  | ok latest =>
      refine ⟨_, _, _, .polled h hpoll rfl, ?_, fun seen => ?_⟩
      · simp only [fetchOne, htoken, hpoll]
      · simp only [fetchOne, hlogged seen, hseen seen]
        rfl

/-- A fetch takes one of the courses, logged or not. -/
theorem exists_fetches :
    ∃ contacts reply after, Fetches store profile options s contacts reply after ∧
      store.fetchOne profile options s = (reply, after) ∧
      ∀ seen, store.logged.fetchOne profile options (s.log seen) =
        (reply, after.log (seen ++ contacts)) := by
  cases hsession : s.sessions.get? profile with
  | some session =>
      refine exists_fetches_of_obtains store profile options s (.held hsession) ?_ fun seen => ?_
      · simp only [token, hsession]
      · simp only [token, State.log, hsession, List.append_nil]
  | none =>
      rcases hstart : store.client.startSession store.application store.environment profile
        options s.client with ⟨outcome, client⟩
      have htoken : store.token profile options s = (outcome, ⟨client, s.sessions⟩) := by
        simp only [token, hsession, hstart]
      have hlogged : ∀ seen, store.logged.token profile options (s.log seen) =
          (outcome, ⟨⟨client, seen ++
            [.start store.application store.environment profile options outcome]⟩,
              s.sessions⟩) := by
        intro seen
        simp only [token, State.log, hsession, logged, ConfigurationClient.logged, Call.logged,
          hstart]
      cases outcome with
      | error e =>
          refine ⟨_, _, _, .unopened hsession hstart, ?_, fun seen => ?_⟩
          · simp only [fetchOne, htoken]
          · simp only [fetchOne, hlogged seen]
            rfl
      | ok token =>
          exact exists_fetches_of_obtains store profile options s (.started hsession hstart)
            htoken hlogged

/-- **A fetch takes one of the courses**, with the calls that its client sees. Later proofs go by
the courses and never open the fetch. -/
theorem fetches : Fetches store profile options s (store.contacts profile options s)
    (store.fetchOne profile options s).1 (store.fetchOne profile options s).2 := by
  obtain ⟨contacts, reply, after, hcourse, hfetch, hlogged⟩ :=
    exists_fetches store profile options s
  have hcontacts : store.contacts profile options s = contacts := by
    rw [ConfigurationStore.contacts, hlogged []]
    rfl
  rw [hcontacts, hfetch]
  exact hcourse

/-- **Being logged changes nothing**, and what is seen of a fetch are its calls. -/
theorem fetchOne_logged (seen : List Contact) :
    store.logged.fetchOne profile options (s.log seen) =
      ((store.fetchOne profile options s).1,
        (store.fetchOne profile options s).2.log
          (seen ++ store.contacts profile options s)) := by
  obtain ⟨contacts, reply, after, -, hfetch, hlogged⟩ := exists_fetches store profile options s
  have hcontacts : store.contacts profile options s = contacts := by
    rw [ConfigurationStore.contacts, hlogged []]
    rfl
  rw [hcontacts, hfetch, hlogged seen]

variable {store profile options s}

/-- A fetch for one profile leaves the sessions of the others as they are. -/
theorem Fetches.others {contacts : List Contact} {reply : Except Error RawValue}
    {after : State κ} (h : Fetches store profile options s contacts reply after) {other : String}
    (hother : other ≠ profile) : after.sessions.get? other = s.sessions.get? other := by
  cases h with
  | unopened hnone hstart => rfl
  | dropped hobtains hpoll => rw [Dict.get?_erase, if_neg hother.symm]
  | polled hobtains hpoll hrenew => rw [Dict.get?_insert, if_neg hother.symm]

end ConfigurationStore

end CachedParameters
