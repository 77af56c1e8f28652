import CachedParameters.Proofs.Machine
import CachedParameters.Proofs.Memory.Grants
import CachedParameters.Proofs.Store.Contacts

/-!
# Configurations are always current

An `AppConfigStore` polls, and is told only what has changed. Over a store in memory
(`FakeAppConfig`) it replies the document that was set last all the same, whether the poll brought
it or found nothing new, and it fails only where there is an excuse: no document was ever set for
the profile, a poll was to fail, or one of its own calls was.

The invariant is `Memory.Configurations.Sound`. Every session holds a token that can be presented,
and if the session has seen the current version of its profile, its document is the current one. A
fetch keeps this for its own profile and leaves the others alone, and a run keeps it by induction.

## Main results

- `Memory.Configurations.fetches_spec`: a fetch keeps the invariant, and replies the current
  document.
- `Memory.Configurations.replies_current`: what the next fetch replies, after every run.
-/

namespace CachedParameters.Memory.Configurations

open ConfigurationStore

/-! ### Runs -/

/-- Something that happens to a configuration store or to the store in memory behind it: a profile
is fetched, a document that is not empty is set for it, or the next poll or other calls are made to
fail. -/
inductive Turn where
  | fetch (profile : String) (options : BackendOptions)
  | setProfile (profile content : String) (given : content ≠ "")
  | failNextPoll
  | failWhen (failing : String → Bool)

/-- The document that a turn sets for a profile. -/
def Turn.sets? (profile : String) : Turn → Option String
  | .setProfile other content _ => if other = profile then some content else none
  | .fetch .. | .failNextPoll | .failWhen _ => none

/-- The document that was set last for a profile. -/
def document? (turns : List Turn) (profile : String) : Option String :=
  turns.reverse.findSome? (Turn.sets? profile)

/-- Takes one turn: a fetch goes through the store, and the other turns change what it works on. -/
def act (store : ConfigurationStore Configurations) (s : State Configurations) :
    Turn → State Configurations
  | .fetch profile options => (store.fetchOne profile options s).2
  | .setProfile profile content _ => { s with client := s.client.setProfile profile content }
  | .failNextPoll => { s with client.failNextPoll := true }
  | .failWhen failing => { s with client.recorder := s.client.recorder.failWhen failing }

/-- Takes the turns of a run, with no profile and no session at first. -/
def play (store : ConfigurationStore Configurations) (turns : List Turn) : State Configurations :=
  (Machine.silent (act store)).run { client := {} } turns

/-! ### The invariant -/

/-- A session can go on: its token was given out and stands for the profile, and for a version that
is not ahead of the current one. If that is the current version, the session has its document. -/
structure Live (s : Configurations) (profile : String) (session : Session) : Prop where
  issued : s.Issued session.token
  granted : ∃ version current, s.grants.get? session.token = some ⟨profile, some version⟩ ∧
    s.profiles.get? profile = some current ∧ version ≤ current.version ∧
      (version = current.version → session.last = current.content)

/-- All sessions can go on, and no document is empty. An empty answer means that nothing has
changed, so an empty document could not be told from that. -/
structure Sound (s : State Configurations) : Prop where
  live (profile : String) (session : Session) : s.sessions.get? profile = some session →
    Live s.client profile session
  filled (profile : String) (current : Profile) :
    s.client.profiles.get? profile = some current → current.content ≠ []

/-- A session can go on after calls for other profiles. -/
theorem Live.of_proceeds {before after : Configurations} {profile other : String}
    {session : Session} (h : Live before other session) (hproceeds : Proceeds profile before after)
    (hother : other ≠ profile) : Live after other session := by
  obtain ⟨version, current, hgrant, hprofile, hseen⟩ := h.granted
  refine ⟨h.issued.mono hproceeds.issued, version, current, ?_, ?_, hseen⟩
  · exact hproceeds.grants _ _ h.issued hgrant hother
  · rw [hproceeds.profiles, hprofile]

/-- A session can go on after a document was set. -/
theorem Live.setProfile {s : Configurations} {other : String} {session : Session}
    (h : Live s other session) (profile content : String) :
    Live (s.setProfile profile content) other session := by
  obtain ⟨version, current, hgrant, hprofile, hle, hseen⟩ := h.granted
  by_cases hsame : profile = other
  · subst hsame
    refine ⟨h.issued, version, ⟨Text.encode content, current.version + 1⟩, hgrant, ?_,
      Nat.le_succ_of_le hle, fun heq => ?_⟩
    · simp only [Configurations.setProfile, Dict.get?_insert, if_pos, hprofile, Option.map_some,
        Option.getD_some]
    · rw [heq] at hle
      exact absurd hle (Nat.not_succ_le_self current.version)
  · refine ⟨h.issued, version, current, hgrant, ?_, hle, hseen⟩
    rw [Configurations.setProfile, Dict.get?_insert, if_neg hsame, hprofile]

/-! ### One fetch -/

section Fetch

variable {store : ConfigurationStore Configurations} {profile : String} {options : BackendOptions}
  {s after : State Configurations} {contacts : List Contact} {reply : Except Error RawValue}

/-- Sessions are opened in the store in memory, so what a fetch calls can be unfolded to it. -/
theorem startSession_of_client (hclient : store.client = Configurations.client)
    {before later : Configurations} {outcome : Except Error String}
    (h : store.client.startSession store.application store.environment profile options before =
      (outcome, later)) :
    startSession store.application store.environment profile before = (outcome, later) := by
  rw [hclient] at h
  exact h

/-- Tokens are presented to the store in memory, so what a fetch calls can be unfolded to it. -/
theorem getLatest_of_client (hclient : store.client = Configurations.client) {token : String}
    {before later : Configurations} {outcome : Except Error LatestConfiguration}
    (h : store.client.getLatest token options before = (outcome, later)) :
    getLatest token before = (outcome, later) := by
  rw [hclient] at h
  exact h

/-- A token that was obtained can be presented, and if it has seen the current version then the
session has the current document. -/
theorem granted_of_obtains (hclient : store.client = Configurations.client) (hsound : Sound s)
    {token : String} {later : Configurations}
    (h : Obtains store profile options s contacts token later) :
    Proceeds profile s.client later ∧ later.failNextPoll = s.client.failNextPoll ∧
      ∃ delivered current, later.grants.get? token = some ⟨profile, delivered⟩ ∧
        later.profiles.get? profile = some current ∧
        (delivered = some current.version →
          ((s.sessions.get? profile).map (·.last)).getD [] = current.content) := by
  cases h with
  | @held session hheld =>
      obtain ⟨version, current, hgrant, hprofile, -, hseen⟩ := (hsound.live _ _ hheld).granted
      refine ⟨.refl profile s.client, rfl, some version, current, hgrant, hprofile, fun hsame => ?_⟩
      rw [hheld]
      exact hseen (Option.some.inj hsame)
  | started hnone hstart =>
      have hspec := startSession_spec store.application store.environment profile s.client
      rw [startSession_of_client hclient hstart] at hspec
      obtain ⟨hproceeds, hpending, hgrant, current, hprofile⟩ := hspec
      rw [← hproceeds.profiles] at hprofile
      exact ⟨hproceeds, hpending, none, current, hgrant, hprofile, fun hsame => nomatch hsame⟩

/-- A poll leaves a session with the current document, whether it brought that or found it seen. -/
theorem last_renew {session : Option Session} {latest : LatestConfiguration}
    {delivered : Option ℕ} {current : Profile} (hfilled : current.content ≠ [])
    (hseen : delivered = some current.version →
      (session.map (·.last)).getD [] = current.content)
    (hcontent : latest.content =
      if delivered = some current.version then [] else current.content) :
    (Session.renew session latest).last = current.content := by
  rw [Session.renew]
  dsimp only
  rw [hcontent]
  by_cases hsame : delivered = some current.version
  · rw [if_pos hsame]
    exact hseen hsame
  · rw [if_neg hsame, if_neg]
    rwa [List.isEmpty_iff]

/-- **A fetch keeps the invariant**, and replies the current document unless there is an excuse. -/
theorem fetches_spec (hclient : store.client = Configurations.client) (hsound : Sound s)
    (h : Fetches store profile options s contacts reply after) :
    Proceeds profile s.client after.client ∧
      (∀ session, after.sessions.get? profile = some session → Live after.client profile session) ∧
      (∀ e, reply = .error e → Excused profile s.client after.client e) ∧
      ∀ raw, reply = .ok raw → ∃ current, s.client.profiles.get? profile = some current ∧
        raw = .ofBytes current.content := by
  cases h with
  | @unopened e later hnone hfail =>
      have hspec := startSession_spec store.application store.environment profile s.client
      rw [startSession_of_client hclient hfail] at hspec
      obtain ⟨hproceeds, -, hexcused⟩ := hspec
      refine ⟨hproceeds, fun session hsession => ?_, fun other hother => ?_,
        fun raw hok => nomatch hok⟩
      · rw [hnone] at hsession
        cases hsession
      · rwa [← Except.error.inj hother]
  | @dropped before token later last e hobtains hpoll =>
      obtain ⟨hproceeds, hpending, delivered, current, hgrant, hprofile, -⟩ :=
        granted_of_obtains hclient hsound hobtains
      have hspec := getLatest_spec hgrant hprofile
      rw [getLatest_of_client hclient hpoll] at hspec
      obtain ⟨hpolled, hexcused⟩ := hspec
      refine ⟨hproceeds.trans hpolled, fun session hsession => ?_, fun other hother => ?_,
        fun raw hok => nomatch hok⟩
      · rw [Dict.get?_erase, if_pos rfl] at hsession
        cases hsession
      · rw [← Except.error.inj hother]
        exact hexcused.of_proceeds hproceeds hpending
  | @polled before token later last latest session hobtains hpoll hrenew =>
      obtain ⟨hproceeds, hpending, delivered, current, hgrant, hprofile, hseen⟩ :=
        granted_of_obtains hclient hsound hobtains
      have hspec := getLatest_spec hgrant hprofile
      rw [getLatest_of_client hclient hpoll] at hspec
      obtain ⟨hpolled, hcontent, hissued, hnext⟩ := hspec
      have hkept : s.client.profiles.get? profile = some current := by
        rw [← hproceeds.profiles, hprofile]
      have hlast := last_renew (hsound.filled profile current hkept) hseen hcontent
      rw [hrenew] at hlast
      have htoken : session.token = latest.nextToken := by
        rw [← hrenew]
        rfl
      refine ⟨hproceeds.trans hpolled, fun left hleft => ?_, fun e hfail => (nomatch hfail),
        fun raw hok => ⟨current, hkept, ?_⟩⟩
      · rw [Dict.get?_insert, if_pos rfl] at hleft
        obtain rfl := Option.some.inj hleft
        refine ⟨htoken ▸ hissued, current.version, current, htoken ▸ hnext, ?_, le_rfl,
          fun _ => hlast⟩
        rw [hpolled.profiles, hprofile]
      · rw [← Except.ok.inj hok, hlast]

/-- A fetch keeps all sessions going. Its own is renewed or dropped, and the others go on, since it
presents no token but its own. -/
theorem Sound.fetch (hclient : store.client = Configurations.client) (hsound : Sound s)
    (h : Fetches store profile options s contacts reply after) : Sound after := by
  obtain ⟨hproceeds, hown, -⟩ := fetches_spec hclient hsound h
  constructor
  · intro other session hsession
    by_cases hother : other = profile
    · subst hother
      exact hown session hsession
    · rw [h.others hother] at hsession
      exact (hsound.live other session hsession).of_proceeds hproceeds hother
  · intro other current hcurrent
    rw [hproceeds.profiles] at hcurrent
    exact hsound.filled other current hcurrent

end Fetch

/-! ### A run -/

/-- The store keeps for every profile the document that was set last. -/
def Keeps (s : Configurations) (turns : List Turn) : Prop :=
  ∀ profile, (s.profiles.get? profile).map (·.content) =
    (document? turns profile).map Text.encode

/-- The document that was set last is that of the last turn, if it sets one. -/
theorem document?_append (turns : List Turn) (last : Turn) (profile : String) :
    document? (turns ++ [last]) profile =
      (last.sets? profile).or (document? turns profile) := by
  rw [document?, List.reverse_append, List.reverse_singleton, List.singleton_append,
    List.findSome?_cons]
  cases last.sets? profile <;> rfl

theorem encode_ne_nil {content : String} (h : content ≠ "") : Text.encode content ≠ [] :=
  fun hnil => h (Text.encode_inj hnil)

/-- To set a document keeps all sessions going: the version goes up, so none of them is ahead of
it. -/
theorem Sound.setProfile {s : State Configurations} (h : Sound s) (profile : String)
    {content : String} (given : content ≠ "") :
    Sound { s with client := s.client.setProfile profile content } := by
  constructor
  · intro other session hsession
    exact (h.live other session hsession).setProfile profile content
  · intro other current hcurrent
    rw [Configurations.setProfile, Dict.get?_insert] at hcurrent
    split at hcurrent
    · rw [← Option.some.inj hcurrent]
      exact encode_ne_nil given
    · exact h.filled other current hcurrent

/-- Where neither profiles nor tokens change, all sessions go on. -/
theorem Sound.congr {s : State Configurations} (h : Sound s) {later : Configurations}
    (hprofiles : later.profiles = s.client.profiles) (hgrants : later.grants = s.client.grants)
    (hissued : later.issued = s.client.issued) : Sound { s with client := later } := by
  constructor
  · intro profile session hsession
    obtain ⟨hgiven, hgranted⟩ := h.live profile session hsession
    refine ⟨?_, ?_⟩
    · rwa [Issued, hissued]
    · rwa [hgrants, hprofiles]
  · intro profile current hcurrent
    rw [hprofiles] at hcurrent
    exact h.filled profile current hcurrent

/-- One turn keeps all sessions going, and the store keeps the documents that were set last. -/
theorem act_sound {store : ConfigurationStore Configurations}
    (hclient : store.client = Configurations.client) {turns : List Turn}
    {s : State Configurations} (hsound : Sound s) (hkeeps : Keeps s.client turns) (last : Turn) :
    Sound (act store s last) ∧ Keeps (act store s last).client (turns ++ [last]) := by
  cases last with
  | fetch profile options =>
      have hfetch := store.fetches profile options s
      refine ⟨hsound.fetch hclient hfetch, fun other => ?_⟩
      rw [document?_append]
      exact (congrArg _ (congrArg (·.get? other)
        (fetches_spec hclient hsound hfetch).1.profiles)).trans (hkeeps other)
  | setProfile profile content given =>
      refine ⟨hsound.setProfile profile given, fun other => ?_⟩
      rw [document?_append, Turn.sets?, act, Configurations.setProfile, Dict.get?_insert]
      split
      · rfl
      · exact hkeeps other
  | failNextPoll | failWhen failing =>
      refine ⟨hsound.congr rfl rfl rfl, fun other => ?_⟩
      rw [document?_append]
      exact hkeeps other

/-- **All sessions can go on, and the documents set last are kept**, after every run. -/
theorem play_sound {store : ConfigurationStore Configurations}
    (hclient : store.client = Configurations.client) (turns : List Turn) :
    Sound (play store turns) ∧ Keeps (play store turns).client turns := by
  have hstart : Sound { client := {} } ∧ Keeps {} [] :=
    ⟨⟨fun _ _ h => (nomatch h), fun _ _ h => (nomatch h)⟩, fun _ => rfl⟩
  exact Machine.run_induction _ (fun turns s => Sound s ∧ Keeps s.client turns) hstart
    (fun _ _ last ⟨hsound, hkeeps⟩ => act_sound hclient hsound hkeeps last) turns

/-- What a fetch comes to, given the turns that were taken before. -/
structure AlwaysCurrent (turns : List Turn) (profile : String) (before after : State Configurations)
    (reply : Except Error RawValue) : Prop where
  /-- What is replied is the document that was set last. -/
  document (raw : RawValue) : reply = .ok raw →
    ∃ content, document? turns profile = some content ∧ raw = .ofBytes (Text.encode content)
  /-- If the fetch fails, no document was ever set, a poll was to fail, or one of its own calls
  was. -/
  excused (e : Error) : reply = .error e →
    (document? turns profile = none ∧ e = .profileNotFound profile) ∨
    (before.client.failNextPoll = true ∧ e = .pollFailed) ∨
    ∃ call ∈ after.client.recorder.calls.drop before.client.recorder.calls.length,
      before.client.recorder.failing call = true ∧ e = .injected call
  /-- It never fails because a token is refused. -/
  accepted (token : String) : reply ≠ .error (.invalidToken token)

/-- **Configurations are always current.** After every run, whatever was set, fetched and made to
fail before, a fetch replies the document that was set last for its profile, no token that it
presents is refused, and it fails only where there is an excuse. -/
theorem replies_current (store : ConfigurationStore Configurations)
    (hclient : store.client = Configurations.client) (turns : List Turn) (profile : String)
    (options : BackendOptions) :
    AlwaysCurrent turns profile (play store turns)
      (store.fetchOne profile options (play store turns)).2
      (store.fetchOne profile options (play store turns)).1 := by
  obtain ⟨hsound, hkeeps⟩ := play_sound hclient turns
  obtain ⟨-, -, hexcused, hdocument⟩ :=
    fetches_spec hclient hsound (store.fetches profile options _)
  have hkept := hkeeps profile
  refine ⟨?_, ?_, ?_⟩
  · intro raw hok
    obtain ⟨current, hprofile, rfl⟩ := hdocument raw hok
    rw [hprofile] at hkept
    obtain ⟨content, hlast, hcontent⟩ := Option.map_eq_some_iff.mp hkept.symm
    exact ⟨content, hlast, by rw [hcontent]⟩
  · intro e hfail
    cases hexcused e hfail with
    | missing hnone =>
        rw [hnone] at hkept
        exact .inl ⟨Option.map_eq_none_iff.mp hkept.symm, rfl⟩
    | pending hpending => exact .inr (.inl ⟨hpending, rfl⟩)
    | injected hmem hfailing => exact .inr (.inr ⟨_, hmem, hfailing, rfl⟩)
  · intro token hfail
    cases hexcused _ hfail

/-- A document that was set twice, with a poll that failed in between. -/
def twiceSet : List Turn :=
  [.setProfile "features" "v1" (by decide), .fetch "features" .empty, .failNextPoll,
    .setProfile "features" "v2" (by decide), .fetch "features" .empty]

/-- After that the second document is replied, in a new session. -/
theorem replies_current_twiceSet :
    (⟨Configurations.client, "orders", "prod", by decide⟩ :
        ConfigurationStore Configurations).client = Configurations.client ∧
      AlwaysCurrent twiceSet "features"
        (play ⟨Configurations.client, "orders", "prod", by decide⟩ twiceSet)
        (fetchOne ⟨Configurations.client, "orders", "prod", by decide⟩ "features" .empty
          (play ⟨Configurations.client, "orders", "prod", by decide⟩ twiceSet)).2
        (fetchOne ⟨Configurations.client, "orders", "prod", by decide⟩ "features" .empty
          (play ⟨Configurations.client, "orders", "prod", by decide⟩ twiceSet)).1 ∧
      (fetchOne ⟨Configurations.client, "orders", "prod", by decide⟩ "features" .empty
        (play ⟨Configurations.client, "orders", "prod", by decide⟩ twiceSet)).1 =
          .ok (.text "v2") :=
  ⟨rfl, replies_current _ rfl twiceSet "features" .empty, rfl⟩

end CachedParameters.Memory.Configurations
