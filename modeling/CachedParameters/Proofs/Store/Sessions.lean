import CachedParameters.Dict
import CachedParameters.Proofs.Machine
import CachedParameters.Proofs.Store.Contacts
import Mathlib.Logic.Function.Basic

/-!
# The discipline of sessions

What an `AppConfigStore` may do for a profile can be read off the calls that were made for it
before, whatever its `AppConfigClient` answers. A session is open exactly if the last call was
successful, its token is the one that this call brought, and its document is the last one received
since it was opened.

The invariant is `ConfigurationStore.Remembers`: the sessions of the store are nothing but the
memory of these calls, and the calls for every profile are orderly. A fetch keeps it in each of its
courses, and a run by induction.

## Main results

- `ConfigurationStore.remembers`: the sessions are the memory of the calls, after every run.
- `Conversation.Orderly.presented_sublist`: no token that was received is presented twice.
- `ConfigurationStore.disciplined`: what a store does next, after every run.
-/

namespace CachedParameters

namespace Contact

/-- The token that an answer brings, if the call was successful. -/
def received? : Contact → Option String
  | .start _ _ _ _ (.ok token) => some token
  | .poll _ _ (.ok latest) => some latest.nextToken
  | .start _ _ _ _ (.error _) | .poll _ _ (.error _) => none

/-- The token that a call presents, if it is a poll. -/
def presented? : Contact → Option String
  | .poll token _ _ => some token
  | .start .. => none

/-- The document that an answer brings, unless it is empty. -/
def content? : Contact → Option (List UInt8)
  | .poll _ _ (.ok latest) => if latest.content.isEmpty then none else some latest.content
  | .poll _ _ (.error _) | .start .. => none

end Contact

/-- The calls made for one profile, the latest first. -/
abbrev Conversation := List Contact

namespace Conversation

/-- The tokens that were received, the latest first. -/
def received (c : Conversation) : List String := c.filterMap Contact.received?

/-- The tokens that were presented, the latest first. -/
def presented (c : Conversation) : List String := c.filterMap Contact.presented?

/-- The token that the last call brought. There is none if no call was made, if the last start
failed, or if the last poll failed. -/
def current? : Conversation → Option String
  | [] => none
  | last :: _ => last.received?

/-- The last document received since the last session was to be opened, empty if there was none. -/
def content (c : Conversation) : List UInt8 :=
  ((c.takeWhile fun contact => contact.presented?.isSome).findSome? Contact.content?).getD []

/-- The session that the calls leave open. -/
def session? (c : Conversation) : Option Session := c.current?.map fun token => ⟨token, c.content⟩

/-- A session is opened only where there is none, and every poll presents the token that the call
right before it brought. A conversation has its last call in front. -/
inductive Orderly : Conversation → Prop where
  | nil : Orderly []
  | start {c : Conversation} {application environment profile : String}
      {options : BackendOptions} {outcome : Except Error String} :
      Orderly c → c.current? = none →
      Orderly (.start application environment profile options outcome :: c)
  | poll {c : Conversation} {token : String} {options : BackendOptions}
      {outcome : Except Error LatestConfiguration} :
      Orderly c → c.current? = some token → Orderly (.poll token options outcome :: c)

/-- Of the tokens received, all but the current one can have been presented, and each of them
once. -/
theorem Orderly.sublist {c : Conversation} (h : Orderly c) :
    (c.current?.toList ++ presented c).Sublist (received c) := by
  induction h with
  | nil => exact List.Sublist.slnil
  | @start c application environment profile options outcome _ hnone ih =>
      rw [hnone, Option.toList_none, List.nil_append] at ih
      cases outcome with
      | ok token => exact ih.cons_cons token
      | error e => exact ih
  | @poll c token options outcome _ hcurrent ih =>
      rw [hcurrent, Option.toList_some] at ih
      cases outcome with
      | ok latest => exact ih.cons_cons latest.nextToken
      | error e => exact ih

/-- **No token that was received is presented twice**: the tokens presented are some of those
received, each for itself and in the same order. -/
theorem Orderly.presented_sublist {c : Conversation} (h : Orderly c) :
    (presented c).Sublist (received c) :=
  (List.sublist_append_right _ _).trans h.sublist

/-- What was said before an orderly conversation went on was orderly. -/
theorem Orderly.of_append {later c : Conversation} (h : Orderly (later ++ c)) : Orderly c := by
  induction later with
  | nil => exact h
  | cons last later ih =>
      cases h with
      | start horderly _ => exact ih horderly
      | poll horderly _ => exact ih horderly

/-- The token of a poll is the one that the call right before it brought. -/
theorem Orderly.current?_of_poll {c : Conversation} {token : String} {options : BackendOptions}
    {outcome : Except Error LatestConfiguration} (h : Orderly (.poll token options outcome :: c)) :
    c.current? = some token := by
  cases h with
  | poll _ hcurrent => exact hcurrent

/-- There is a session exactly if there is a token. -/
theorem session?_eq_none_iff {c : Conversation} : c.session? = none ↔ c.current? = none :=
  Option.map_eq_none_iff

/-- A successful poll brings a document, or leaves the one before. -/
theorem content_poll (c : Conversation) (token : String) (options : BackendOptions)
    (latest : LatestConfiguration) :
    content (.poll token options (.ok latest) :: c) =
      if latest.content.isEmpty then c.content else latest.content := by
  rw [content, List.takeWhile_cons, Contact.presented?, Option.isSome_some, if_pos rfl,
    List.findSome?_cons, Contact.content?]
  split
  · rename_i hcontent
    split at hcontent
    · cases hcontent
    · rename_i hempty
      rw [if_neg hempty, Option.getD_some, Option.some.inj hcontent]
  · rename_i hcontent
    split at hcontent
    · rename_i hempty
      rw [if_pos hempty, content]
    · cases hcontent

end Conversation

namespace ConfigurationStore

variable {κ : Type}

/-- A store at some point of a run: its state, and the calls made for every profile. -/
structure Course (κ : Type) where
  state : State κ
  conversations : String → Conversation

/-- Makes one fetch and puts its contacts in front of those that the profile has had, so the latest
comes first. -/
def visit (store : ConfigurationStore κ) (course : Course κ) (fetch : String × BackendOptions) :
    Course κ where
  state := (store.fetchOne fetch.1 fetch.2 course.state).2
  conversations := Function.update course.conversations fetch.1
    ((store.contacts fetch.1 fetch.2 course.state).reverse ++ course.conversations fetch.1)

/-- Makes the fetches of a run, with no session open at first. -/
def course (store : ConfigurationStore κ) (client : κ) (fetches : List (String × BackendOptions)) :
    Course κ :=
  (Machine.silent store.visit).run { state := { client }, conversations := fun _ => [] } fetches

/-- The sessions are the memory of the calls: the session of a profile is the one that its calls
leave open, and these are orderly. -/
structure Remembers (course : Course κ) : Prop where
  session (profile : String) :
    course.state.sessions.get? profile = (course.conversations profile).session?
  orderly (profile : String) : (course.conversations profile).Orderly

section Step

variable {store : ConfigurationStore κ} {profile : String} {options : BackendOptions}
  {s after : State κ} {earlier : Conversation} {contacts : List Contact}
  {reply : Except Error RawValue}

/-! ### One fetch -/

/-- A token that was obtained is the current one, of a session whose document is the one before. -/
theorem Obtains.remembers {token : String} {client : κ}
    (h : Obtains store profile options s contacts token client)
    (hsession : s.sessions.get? profile = earlier.session?) (horderly : earlier.Orderly) :
    Conversation.Orderly (contacts.reverse ++ earlier) ∧
      Conversation.current? (contacts.reverse ++ earlier) = some token ∧
      Conversation.content (contacts.reverse ++ earlier) =
        ((s.sessions.get? profile).map (·.last)).getD [] := by
  cases h with
  | held hheld =>
      rw [hheld] at hsession
      obtain ⟨token, hcurrent, rfl⟩ := Option.map_eq_some_iff.mp hsession.symm
      rw [hheld]
      exact ⟨horderly, hcurrent, rfl⟩
  | started hnone hstart =>
      rw [hnone] at hsession ⊢
      have hcurrent := Conversation.session?_eq_none_iff.mp hsession.symm
      exact ⟨horderly.start hcurrent, rfl, rfl⟩

/-- Whatever course a fetch takes, the calls stay orderly and the session is what they leave
open. -/
theorem Fetches.remembers (h : Fetches store profile options s contacts reply after)
    (hsession : s.sessions.get? profile = earlier.session?) (horderly : earlier.Orderly) :
    after.sessions.get? profile = Conversation.session? (contacts.reverse ++ earlier) ∧
      Conversation.Orderly (contacts.reverse ++ earlier) := by
  cases h with
  | unopened hnone hstart =>
      rw [hnone] at hsession
      have hcurrent := Conversation.session?_eq_none_iff.mp hsession.symm
      exact ⟨hnone, horderly.start hcurrent⟩
  | dropped hobtains hpoll =>
      obtain ⟨horderly, hcurrent, -⟩ := hobtains.remembers hsession horderly
      rw [List.reverse_append, List.append_assoc]
      refine ⟨?_, horderly.poll hcurrent⟩
      rw [Dict.get?_erase, if_pos rfl]
      rfl
  | @polled before token client later latest session hobtains hpoll hrenew =>
      obtain ⟨horderly, hcurrent, hcontent⟩ := hobtains.remembers hsession horderly
      rw [List.reverse_append, List.append_assoc]
      refine ⟨?_, horderly.poll hcurrent⟩
      rw [Dict.get?_insert, if_pos rfl, ← hrenew, Session.renew, ← hcontent,
        ← Conversation.content_poll]
      rfl

/-- The calls for a token open a session exactly if there is none. -/
theorem Obtains.opens {token : String} {client : κ}
    (h : Obtains store profile options s contacts token client) :
    (∃ outcome, .start store.application store.environment profile options outcome ∈ contacts) ↔
      s.sessions.get? profile = none := by
  cases h with
  | held hheld => simp [hheld]
  | started hnone hstart => simp [hnone]

/-- A fetch opens a session exactly if there is none. -/
theorem Fetches.opens (h : Fetches store profile options s contacts reply after) :
    (∃ outcome, .start store.application store.environment profile options outcome ∈ contacts) ↔
      s.sessions.get? profile = none := by
  cases h with
  | unopened hnone hstart => simp [hnone]
  | dropped hobtains hpoll => simp [← hobtains.opens]
  | polled hobtains hpoll hrenew => simp [← hobtains.opens]

/-- Up to its poll, a fetch has at most opened a session for its profile. -/
theorem Obtains.started_or_poll {token : String} {client : κ}
    (h : Obtains store profile options s contacts token client) {poll contact : Contact}
    (hmem : contact ∈ contacts ++ [poll]) :
    (∃ token, contact =
        .start store.application store.environment profile options (.ok token)) ∨
      contact = poll := by
  rcases List.mem_append.mp hmem with hmem | hmem
  · cases h with
    | held hheld => exact absurd hmem List.not_mem_nil
    | started hnone hstart => exact .inl ⟨token, List.mem_singleton.mp hmem⟩
  · exact .inr (List.mem_singleton.mp hmem)

/-- A fetch opens a session for no other profile. -/
theorem Fetches.own (h : Fetches store profile options s contacts reply after)
    {contact : Contact} (hmem : contact ∈ contacts) (hstart : contact.presented? = none) :
    ∃ outcome, contact =
      .start store.application store.environment profile options outcome := by
  cases h with
  | unopened hnone hfail => exact ⟨_, List.mem_singleton.mp hmem⟩
  | dropped hobtains hpoll | polled hobtains hpoll hrenew =>
      rcases hobtains.started_or_poll hmem with ⟨token, rfl⟩ | rfl
      · exact ⟨_, rfl⟩
      · cases hstart

/-- If a session cannot be opened, the fetch ends there and leaves none. -/
theorem Fetches.of_failed_start (h : Fetches store profile options s contacts reply after)
    {application environment other : String} {others : BackendOptions} {e : Error}
    (hmem : .start application environment other others (.error e) ∈ contacts) :
    contacts = [.start application environment other others (.error e)] ∧ reply = .error e ∧
      after.sessions.get? profile = none := by
  cases h with
  | unopened hnone hfail =>
      obtain ⟨rfl, rfl, rfl, rfl, hsame⟩ := Contact.start.inj (List.mem_singleton.mp hmem)
      obtain rfl := Except.error.inj hsame
      exact ⟨rfl, rfl, hnone⟩
  | dropped hobtains hpoll | polled hobtains hpoll hrenew =>
      rcases hobtains.started_or_poll hmem with ⟨token, hsame⟩ | hsame
      · cases hsame
      · cases hsame

/-- If a poll fails, the fetch fails and leaves no session. -/
theorem Fetches.of_failed_poll (h : Fetches store profile options s contacts reply after)
    {token : String} {others : BackendOptions} {e : Error}
    (hmem : .poll token others (.error e) ∈ contacts) :
    reply = .error e ∧ after.sessions.get? profile = none := by
  cases h with
  | unopened hnone hfail => cases List.mem_singleton.mp hmem
  | dropped hobtains hpoll =>
      rcases hobtains.started_or_poll hmem with ⟨other, hsame⟩ | hsame
      · cases hsame
      · obtain ⟨-, -, hsame⟩ := Contact.poll.inj hsame
        rw [Except.error.inj hsame, Dict.get?_erase, if_pos rfl]
        exact ⟨rfl, rfl⟩
  | polled hobtains hpoll hrenew =>
      rcases hobtains.started_or_poll hmem with ⟨other, hsame⟩ | hsame
      · cases hsame
      · cases hsame

/-- What a fetch replies is the document of the session that it leaves. -/
theorem Fetches.exists_session (h : Fetches store profile options s contacts reply after)
    {raw : RawValue} (hok : reply = .ok raw) :
    ∃ session, after.sessions.get? profile = some session ∧ raw = .ofBytes session.last := by
  cases h with
  | unopened hnone hfail => cases hok
  | dropped hobtains hpoll => cases hok
  | @polled before token client later latest session hobtains hpoll hrenew =>
      refine ⟨session, ?_, (Except.ok.inj hok).symm⟩
      rw [Dict.get?_insert, if_pos rfl]

end Step

/-! ### A run -/

/-- No call was made yet, and no session is open. -/
theorem Remembers.start (client : κ) :
    Remembers ({ state := { client }, conversations := fun _ => [] } : Course κ) :=
  ⟨fun _ => rfl, fun _ => .nil⟩

/-- A fetch adds its calls to those made for its profile. -/
theorem visit_conversations_self (store : ConfigurationStore κ) (course : Course κ)
    (profile : String) (options : BackendOptions) :
    (store.visit course (profile, options)).conversations profile =
      (store.contacts profile options course.state).reverse ++ course.conversations profile :=
  Function.update_self ..

/-- A fetch adds nothing to the calls made for other profiles. -/
theorem visit_conversations_other (store : ConfigurationStore κ) (course : Course κ)
    {profile other : String} (h : other ≠ profile) (options : BackendOptions) :
    (store.visit course (profile, options)).conversations other = course.conversations other :=
  Function.update_of_ne h ..

/-- A fetch keeps what is remembered: it leaves the session that its own calls leave open, and those
of all other profiles as they were. -/
theorem Remembers.visit {course : Course κ} (h : Remembers course) (store : ConfigurationStore κ)
    (fetch : String × BackendOptions) : Remembers (store.visit course fetch) := by
  obtain ⟨profile, options⟩ := fetch
  have hfetch := store.fetches profile options course.state
  obtain ⟨hsession, horderly⟩ := hfetch.remembers (h.session profile) (h.orderly profile)
  constructor
  · intro other
    by_cases hother : other = profile
    · rw [hother, visit_conversations_self]
      exact hsession
    · rw [visit_conversations_other store course hother]
      exact (hfetch.others hother).trans (h.session other)
  · intro other
    by_cases hother : other = profile
    · rw [hother, visit_conversations_self]
      exact horderly
    · rw [visit_conversations_other store course hother]
      exact h.orderly other

/-- **The sessions are the memory of the calls**, after every run: nothing else of the past has any
influence on which token is presented next. -/
theorem remembers (store : ConfigurationStore κ) (client : κ)
    (fetches : List (String × BackendOptions)) : Remembers (store.course client fetches) :=
  Machine.run_induction _ (fun _ => Remembers) (.start client)
    (fun _ _ fetch h => h.visit store fetch) fetches

/-- What a fetch does for a profile, by the calls that were made for it earlier. -/
structure Disciplined (store : ConfigurationStore κ) (profile : String)
    (options : BackendOptions) (s : State κ) (earlier : Conversation) (contacts : List Contact)
    (reply : Except Error RawValue) (after : State κ) : Prop where
  /-- There is no session exactly if no call was made, the last start failed, or the last poll
  failed. -/
  session : s.sessions.get? profile = none ↔ earlier.current? = none
  /-- A session is opened exactly if there is none. -/
  opens : (∃ outcome,
      .start store.application store.environment profile options outcome ∈ contacts) ↔
    s.sessions.get? profile = none
  /-- No session is opened for anything else. -/
  own (contact : Contact) : contact ∈ contacts → contact.presented? = none →
    ∃ outcome, contact = .start store.application store.environment profile options outcome
  /-- If a session cannot be opened, no poll is made and none is left. -/
  unopened (e : Error) :
    .start store.application store.environment profile options (.error e) ∈ contacts →
      contacts = [.start store.application store.environment profile options (.error e)] ∧
        reply = .error e ∧ after.sessions.get? profile = none
  /-- A poll presents the token that the call for the profile right before it brought. -/
  presents (before behind : List Contact) (token : String) (others : BackendOptions)
      (outcome : Except Error LatestConfiguration) :
    contacts = before ++ .poll token others outcome :: behind →
      Conversation.current? (before.reverse ++ earlier) = some token
  /-- No token that was received for the profile is presented twice. -/
  once : (Conversation.presented (contacts.reverse ++ earlier)).Sublist
    (Conversation.received (contacts.reverse ++ earlier))
  /-- If a poll fails, the session and its document are dropped. -/
  dropped (token : String) (others : BackendOptions) (e : Error) :
    .poll token others (.error e) ∈ contacts →
      reply = .error e ∧ after.sessions.get? profile = none
  /-- What is replied is the last document received in the session. -/
  replies (raw : RawValue) : reply = .ok raw →
    raw = .ofBytes (Conversation.content (contacts.reverse ++ earlier))
  /-- The session of every other profile stays as it is. -/
  others (other : String) : other ≠ profile →
    after.sessions.get? other = s.sessions.get? other

/-- **Sessions are disciplined.** Whatever the client answers, after every run of fetches the next
one opens a session exactly if the calls for its profile left none open, presents the token that the
last of these calls brought, never one for the second time, forgets the session with its document if
the poll fails, replies the last document received since the session was opened, and touches no
other profile. -/
theorem disciplined (store : ConfigurationStore κ) (client : κ)
    (fetches : List (String × BackendOptions)) (profile : String) (options : BackendOptions) :
    Disciplined store profile options (store.course client fetches).state
      ((store.course client fetches).conversations profile)
      (store.contacts profile options (store.course client fetches).state)
      (store.fetchOne profile options (store.course client fetches).state).1
      (store.fetchOne profile options (store.course client fetches).state).2 := by
  have hremembers := store.remembers client fetches
  generalize store.course client fetches = course at hremembers ⊢
  have hfetch := store.fetches profile options course.state
  have hsession := hremembers.session profile
  obtain ⟨hafter, horderly⟩ := hfetch.remembers hsession (hremembers.orderly profile)
  refine ⟨?_, hfetch.opens, fun contact => hfetch.own, fun e => hfetch.of_failed_start, ?_,
    horderly.presented_sublist, fun token others e => hfetch.of_failed_poll, ?_,
    fun other => hfetch.others⟩
  · rw [hsession, Conversation.session?_eq_none_iff]
  · intro before behind token others outcome hcontacts
    rw [hcontacts, List.reverse_append, List.reverse_cons, List.append_assoc, List.append_assoc]
      at horderly
    exact horderly.of_append.current?_of_poll
  · intro raw hok
    obtain ⟨session, hleft, rfl⟩ := hfetch.exists_session hok
    rw [hafter] at hleft
    obtain ⟨token, -, rfl⟩ := Option.map_eq_some_iff.mp hleft
    rfl

end ConfigurationStore

end CachedParameters
