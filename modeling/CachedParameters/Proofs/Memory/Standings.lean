import CachedParameters.Proofs.Memory.Grants
import CachedParameters.Proofs.Memory.Steady
import CachedParameters.Proofs.Store.Contacts

/-!
# Sessions that share a configuration store in memory

Several configuration stores may poll one store in memory, each with sessions of its own. What a
session replies depends on its `Standing` alone, which is what it has seen so far, and on the
profile; the tokens that go to and fro do not matter. As no token is given out twice, no two
sessions ever hold the same one, and so a fetch leaves the standing of every other session as it is.

The invariant is `Memory.Configurations.Apart`: every session holds a token of its own that can be
presented for its profile.

## Main results

- `Memory.Configurations.fetches_standing`: what a fetch replies and leaves behind, as long as no
  call is made to fail.
- `Memory.Configurations.Apart.fetch`: it keeps the invariant.
- `Memory.Configurations.Apart.standing?_of_other`: it leaves the standing of the other sessions as
  it is.
-/

namespace CachedParameters.Memory.Configurations

open ConfigurationStore

/-! ### Standings -/

/-- What a session has seen so far: the version that was delivered last, and the document that was
received last, which is empty if there was none. -/
structure Standing where
  delivered : Option ℕ
  last : List UInt8

/-- The standing of a session that is about to be opened. -/
def Standing.fresh : Standing := ⟨none, []⟩

/-- The document behind a poll: the current one, unless it was seen before or is empty. -/
def Standing.document (standing : Standing) (current : Profile) : List UInt8 :=
  if standing.delivered = some current.version ∨ current.content = [] then standing.last
  else current.content

/-- What is replied to one who stands so, and the standing after that. Without a profile there is
nothing to reply and the session ends. -/
def Standing.poll (profile : String) (standing : Option Standing) :
    Option Profile → Except Error RawValue × Option Standing
  | none => (.error (.profileNotFound profile), none)
  | some current =>
    let document := (standing.getD .fresh).document current
    (.ok (.ofBytes document), some ⟨some current.version, document⟩)

/-- The version that a token stands for. -/
def delivered (s : Configurations) (token : String) : Option ℕ :=
  (s.grants.get? token).bind (·.delivered)

/-- The standing of the session of a profile, if there is one. -/
def standing? (s : Configurations) (sessions : Dict Session) (profile : String) :
    Option Standing :=
  (sessions.get? profile).map fun session => ⟨s.delivered session.token, session.last⟩

/-- No call and no poll is made to fail. -/
structure Calm (s : Configurations) : Prop where
  recorder : s.recorder.Calm
  polls : s.failNextPoll = false

/-- A token can be presented for a profile. -/
def Granted (s : Configurations) (profile token : String) : Prop :=
  ∃ delivered, s.grants.get? token = some ⟨profile, delivered⟩

/-! ### Calls that are not made to fail -/

/-- From one state to another nothing was taken back but the token `taken`, if any: all other tokens
stand for what they stood for. The profiles are the same, and nothing is made to fail. -/
structure Spares (taken : Option String) (before after : Configurations) : Prop where
  profiles : after.profiles = before.profiles
  calm : after.Calm
  issued : before.issued ≤ after.issued
  grants (token : String) : before.Issued token → some token ≠ taken →
    after.grants.get? token = before.grants.get? token

theorem Spares.noting {s : Configurations} (h : s.Calm) (call : String) :
    Spares none s (s.noting call) where
  profiles := rfl
  calm := ⟨h.recorder, h.polls⟩
  issued := le_rfl
  grants _ _ _ := rfl

theorem Spares.issue {taken : Option String} {before s : Configurations}
    (h : Spares taken before s) (grant : Grant) : Spares taken before (s.issue grant).2 where
  profiles := h.profiles
  calm := ⟨h.calm.recorder, h.calm.polls⟩
  issued := h.issued.trans s.issued.le_succ
  grants token hissued hne := by
    have hnew := tokenOf_issued_ne (hissued.mono h.issued) grant.profile
    exact (Dict.get?_insert ..).trans ((if_neg hnew).trans (h.grants token hissued hne))

/-- A token that is taken behind calls that took none is the only one taken. -/
theorem Spares.trans {taken : Option String} {token : String} {a b c : Configurations}
    (hab : Spares none a b) (hbc : Spares (some token) b c)
    (hother : ∀ other, a.Issued other → some other ≠ taken → other ≠ token) :
    Spares taken a c where
  profiles := hbc.profiles.trans hab.profiles
  calm := hbc.calm
  issued := hab.issued.trans hbc.issued
  grants other hissued hne := by
    have hkept := hbc.grants other (hissued.mono hab.issued) fun hsame =>
      hother other hissued hne (Option.some.inj hsame)
    rw [hkept, hab.grants other hissued (Option.some_ne_none other)]

/-- To take in a token takes that one. -/
theorem Spares.erase {s : Configurations} (h : s.Calm) (call token : String) :
    Spares (some token) s { s.noting call with grants := s.grants.erase token } where
  profiles := rfl
  calm := ⟨h.recorder, h.polls⟩
  issued := le_rfl
  grants other _ hne := by
    have hother : token ≠ other := fun hsame => hne (congrArg some hsame.symm)
    exact (Dict.get?_erase ..).trans (if_neg hother)

/-- A token with a number not yet reached was not given out. -/
theorem not_issued_of_le {s : Configurations} {profile : String} {number : ℕ}
    (h : s.issued ≤ number) : ¬ s.Issued (tokenOf profile number) := by
  rintro ⟨other, earlier, hlt, hsame⟩
  rw [number_eq_of_tokenOf_eq hsame] at h
  exact absurd hlt h.not_gt

section Calls

variable {s later : Configurations} {application environment profile token : String} {e : Error}

/-- The store behind the record of a call for a new session. -/
theorem startSession_of_calm (h : s.Calm) (application environment profile : String) :
    startSession application environment profile s =
      if s.profiles.contains profile then
        (.ok ((s.noting ("start_session:" ++ application ++ "/" ++ environment ++ "/" ++
            profile)).issue ⟨profile, none⟩).1,
          ((s.noting ("start_session:" ++ application ++ "/" ++ environment ++ "/" ++
            profile)).issue ⟨profile, none⟩).2)
      else (.error (.profileNotFound profile),
        s.noting ("start_session:" ++ application ++ "/" ++ environment ++ "/" ++ profile)) := by
  rw [startSession, Recorder.record, h.recorder]
  simp only [Bool.false_eq_true, if_false]
  rfl

/-- A session that is opened gets a new token. -/
theorem of_startSession_ok (h : s.Calm)
    (hstart : startSession application environment profile s = (.ok token, later)) :
    Spares none s later ∧ ¬ s.Issued token ∧ later.grants.get? token = some ⟨profile, none⟩ := by
  rw [startSession_of_calm h] at hstart
  split at hstart
  · obtain ⟨htoken, rfl⟩ := Prod.mk.inj hstart
    obtain rfl := Except.ok.inj htoken
    exact ⟨(Spares.noting h _).issue _, not_issued_of_le le_rfl, grants_issue _ _⟩
  · cases (Prod.mk.inj hstart).1

/-- A session that is not opened has no profile. -/
theorem of_startSession_error (h : s.Calm)
    (hstart : startSession application environment profile s = (.error e, later)) :
    Spares none s later ∧ s.profiles.get? profile = none ∧ e = .profileNotFound profile := by
  rw [startSession_of_calm h] at hstart
  split at hstart
  · cases (Prod.mk.inj hstart).1
  · rename_i hmissing
    obtain ⟨he, rfl⟩ := Prod.mk.inj hstart
    rw [Dict.contains, Bool.not_eq_true, Option.isSome_eq_false_iff] at hmissing
    exact ⟨Spares.noting h _, Option.isNone_iff_eq_none.mp hmissing, (Except.error.inj he).symm⟩

/-- A token that can be presented is taken in, and brings the document unless it was seen, with a
new token, if there is a profile. -/
theorem getLatest_of_calm (h : s.Calm) {grant : Grant} (hgrant : s.grants.get? token = some grant) :
    getLatest token s =
      match s.profiles.get? grant.profile with
      | none => (.error (.profileNotFound grant.profile),
          { s.noting ("get_latest_configuration:" ++ token) with
            grants := s.grants.erase token })
      | some current =>
        let (next, later) :=
          { s.noting ("get_latest_configuration:" ++ token) with
            grants := s.grants.erase token }.issue ⟨grant.profile, some current.version⟩
        (.ok ⟨if grant.delivered = some current.version then [] else current.content, next⟩,
          later) := by
  have hpending : ¬ s.failNextPoll = true := by
    rw [h.polls]
    exact Bool.false_ne_true
  exact (getLatest_eq_poll (h.recorder _) hgrant).trans (if_neg hpending)

/-- A poll that succeeds brings the document unless it was seen, and a new token. -/
theorem of_getLatest_ok (h : s.Calm) {seen : Option ℕ}
    (hgrant : s.grants.get? token = some ⟨profile, seen⟩) {latest : LatestConfiguration}
    (hpoll : getLatest token s = (.ok latest, later)) :
    Spares (some token) s later ∧
      ∃ current, s.profiles.get? profile = some current ∧
        latest.content = (if seen = some current.version then [] else current.content) ∧
        later.Issued latest.nextToken ∧ ¬ s.Issued latest.nextToken ∧
        later.grants.get? latest.nextToken = some ⟨profile, some current.version⟩ := by
  rw [getLatest_of_calm h hgrant] at hpoll
  cases hprofile : s.profiles.get? profile with
  | none =>
      rw [hprofile] at hpoll
      cases (Prod.mk.inj hpoll).1
  | some current =>
      rw [hprofile] at hpoll
      obtain ⟨hlatest, rfl⟩ := Prod.mk.inj hpoll
      obtain rfl := Except.ok.inj hlatest
      exact ⟨(Spares.erase h _ token).issue _, current, rfl, rfl, issued_issue _ _,
        not_issued_of_le le_rfl, grants_issue _ _⟩

/-- A poll that fails has no profile. -/
theorem of_getLatest_error (h : s.Calm) {seen : Option ℕ}
    (hgrant : s.grants.get? token = some ⟨profile, seen⟩)
    (hpoll : getLatest token s = (.error e, later)) :
    Spares (some token) s later ∧ s.profiles.get? profile = none ∧
      e = .profileNotFound profile := by
  rw [getLatest_of_calm h hgrant] at hpoll
  cases hprofile : s.profiles.get? profile with
  | some current =>
      rw [hprofile] at hpoll
      cases (Prod.mk.inj hpoll).1
  | none =>
      rw [hprofile] at hpoll
      obtain ⟨he, rfl⟩ := Prod.mk.inj hpoll
      exact ⟨Spares.erase h _ token, rfl, (Except.error.inj he).symm⟩

end Calls

/-! ### One fetch -/

/-- What a fetch for a profile replies and leaves behind. The standing of the session and the
profile decide the reply and the standing afterwards. The sessions of other profiles are the same,
no token is taken back but that of the session, and a session that goes on has a new token, which
can be presented. -/
structure FetchedAs (s : State Configurations) (profile : String) (reply : Except Error RawValue)
    (after : State Configurations) : Prop where
  reply : reply = (Standing.poll profile (standing? s.client s.sessions profile)
    (s.client.profiles.get? profile)).1
  standing : standing? after.client after.sessions profile =
    (Standing.poll profile (standing? s.client s.sessions profile)
      (s.client.profiles.get? profile)).2
  sessions (other : String) : other ≠ profile →
    after.sessions.get? other = s.sessions.get? other
  spares : Spares ((s.sessions.get? profile).map (·.token)) s.client after.client
  renewed (session : Session) : after.sessions.get? profile = some session →
    after.client.Issued session.token ∧ ¬ s.client.Issued session.token ∧
      after.client.Granted profile session.token

section Fetch

variable {store : ConfigurationStore Configurations} {profile : String} {options : BackendOptions}
  {s : State Configurations} {contacts : List Contact}

/-- A token that is obtained can be presented, for what the session has seen. It is that of the
session, or a new one. -/
theorem obtains_spec (hclient : store.client = Configurations.client) (hcalm : s.client.Calm)
    (hgranted : ∀ session, s.sessions.get? profile = some session →
      s.client.Granted profile session.token)
    {token : String} {later : Configurations}
    (h : Obtains store profile options s contacts token later) :
    Spares none s.client later ∧
      later.grants.get? token =
        some ⟨profile, ((standing? s.client s.sessions profile).getD .fresh).delivered⟩ ∧
      ∀ other, s.client.Issued other → some other ≠ (s.sessions.get? profile).map (·.token) →
        other ≠ token := by
  cases h with
  | @held session hheld =>
      obtain ⟨seen, hgrant⟩ := hgranted session hheld
      refine ⟨⟨rfl, hcalm, le_rfl, fun _ _ _ => rfl⟩, ?_, fun other _ hother => ?_⟩
      · rw [standing?, hheld, hgrant]
        simp only [Option.map_some, Option.getD_some, delivered, hgrant, Option.bind_some]
      · rw [hheld] at hother
        exact fun hsame => hother (congrArg some hsame)
  | started hnone hstart =>
      rw [hclient] at hstart
      obtain ⟨hspares, hnew, hgrant⟩ := of_startSession_ok hcalm hstart
      refine ⟨hspares, ?_, fun other hissued _ hsame => hnew (hsame ▸ hissued)⟩
      rw [standing?, hnone]
      exact hgrant

/-- The last document of the session of a profile is that of its standing. -/
theorem last_standing? (s : State Configurations) (profile : String) :
    ((s.sessions.get? profile).map (·.last)).getD [] =
      ((standing? s.client s.sessions profile).getD .fresh).last := by
  rw [standing?]
  cases s.sessions.get? profile <;> rfl

/-- The document that a poll leaves with a session is that of its standing. -/
theorem last_renew_eq_document {session : Option Session} {standing : Standing} {current : Profile}
    {latest : LatestConfiguration} (hlast : (session.map (·.last)).getD [] = standing.last)
    (hcontent : latest.content =
      if standing.delivered = some current.version then [] else current.content) :
    (Session.renew session latest).last = standing.document current := by
  rw [Session.renew, Standing.document, hlast, hcontent]
  by_cases hseen : standing.delivered = some current.version
  · simp only [hseen, true_or, if_true, List.isEmpty_nil]
  · simp only [hseen, false_or, if_false, List.isEmpty_iff]

/-- **A fetch replies by the standing of its session**, as long as nothing is made to fail. -/
theorem fetches_standing (hclient : store.client = Configurations.client) (hcalm : s.client.Calm)
    (hgranted : ∀ session, s.sessions.get? profile = some session →
      s.client.Granted profile session.token)
    {reply : Except Error RawValue} {after : State Configurations}
    (h : Fetches store profile options s contacts reply after) :
    FetchedAs s profile reply after := by
  cases h with
  | @unopened e later hnone hstart =>
      rw [hclient] at hstart
      obtain ⟨hspares, hprofile, rfl⟩ := of_startSession_error hcalm hstart
      refine ⟨?_, ?_, fun other _ => rfl, ?_, fun session hsession => ?_⟩
      · rw [hprofile]
        rfl
      · rw [hprofile, standing?, hnone]
        rfl
      · rw [hnone]
        exact hspares
      · rw [hnone] at hsession
        cases hsession
  | @dropped before token later last e hobtains hpoll =>
      obtain ⟨hspares, hgrant, hother⟩ := obtains_spec hclient hcalm hgranted hobtains
      rw [hclient] at hpoll
      obtain ⟨htaken, hprofile, rfl⟩ := of_getLatest_error hspares.calm hgrant hpoll
      rw [hspares.profiles] at hprofile
      have herased : (s.sessions.erase profile).get? profile = none :=
        (Dict.get?_erase ..).trans (if_pos rfl)
      refine ⟨?_, ?_, fun other hne => ?_, hspares.trans htaken hother,
        fun session hsession => ?_⟩
      · rw [hprofile]
        rfl
      · rw [hprofile, standing?, herased]
        rfl
      · exact (Dict.get?_erase ..).trans (if_neg hne.symm)
      · rw [herased] at hsession
        cases hsession
  | @polled before token later last latest session hobtains hpoll hrenew =>
      obtain ⟨hspares, hgrant, hother⟩ := obtains_spec hclient hcalm hgranted hobtains
      rw [hclient] at hpoll
      obtain ⟨htaken, current, hprofile, hcontent, hissued, hnew, hnext⟩ :=
        of_getLatest_ok hspares.calm hgrant hpoll
      rw [hspares.profiles] at hprofile
      have hlast := last_renew_eq_document (last_standing? s profile) hcontent
      have htoken : (Session.renew (s.sessions.get? profile) latest).token = latest.nextToken := rfl
      rw [hrenew] at hlast htoken
      have hinserted : (s.sessions.insert profile session).get? profile = some session :=
        (Dict.get?_insert ..).trans (if_pos rfl)
      refine ⟨?_, ?_, fun other hne => ?_, hspares.trans htaken hother,
        fun renewed hrenewed => ?_⟩
      · rw [hprofile, hlast]
        rfl
      · rw [hprofile, standing?, hinserted, Option.map_some, htoken, delivered, hnext, hlast]
        rfl
      · exact (Dict.get?_insert ..).trans (if_neg hne.symm)
      · rw [hinserted] at hrenewed
        obtain rfl := Option.some.inj hrenewed
        rw [htoken]
        exact ⟨hissued, fun hbefore => hnew (hbefore.mono hspares.issued), _, hnext⟩

end Fetch

/-! ### All sessions -/

/-- Every session, whichever store it belongs to, holds a token of its own that can be presented for
its profile. -/
structure Apart {ι : Type} (client : Configurations) (sessions : ι → Dict Session) : Prop where
  issued (i : ι) (profile : String) (session : Session) :
    (sessions i).get? profile = some session → client.Issued session.token
  granted (i : ι) (profile : String) (session : Session) :
    (sessions i).get? profile = some session → client.Granted profile session.token
  distinct (i j : ι) (p q : String) (a b : Session) :
    (sessions i).get? p = some a → (sessions j).get? q = some b → a.token = b.token →
      i = j ∧ p = q

section Apart

variable {ι : Type} {sessions later : ι → Dict Session} {s after : State Configurations}
  {reply : Except Error RawValue} {profile : String} {i : ι}

theorem Apart.empty (client : Configurations) :
    Apart client (fun _ : ι => (.empty : Dict Session)) :=
  ⟨fun _ _ _ h => (nomatch h), fun _ _ _ h => (nomatch h), fun _ _ _ _ _ _ h => (nomatch h)⟩

/-- The sessions of one store are kept apart if all are. -/
theorem Apart.of_one {client : Configurations} (h : Apart client sessions) (i : ι) :
    Apart client (fun _ : Unit => sessions i) :=
  ⟨fun _ => h.issued i, fun _ => h.granted i,
    fun _ _ p q a b ha hb hsame => ⟨rfl, (h.distinct i i p q a b ha hb hsame).2⟩⟩

/-- Behind a fetch every other session is what it was, and its token was not taken. -/
theorem Apart.of_other (h : Apart s.client sessions) (hself : sessions i = s.sessions)
    (hfetch : FetchedAs s profile reply after) (hlater : later i = after.sessions)
    (hothers : ∀ j, j ≠ i → later j = sessions j) {j : ι} {q : String}
    (hother : ¬ (j = i ∧ q = profile)) :
    (later j).get? q = (sessions j).get? q ∧
      ∀ session, (sessions j).get? q = some session →
        after.client.grants.get? session.token = s.client.grants.get? session.token := by
  constructor
  · by_cases hj : j = i
    · subst hj
      rw [hlater, hself]
      exact hfetch.sessions q fun hq => hother ⟨rfl, hq⟩
    · rw [hothers j hj]
  · intro session hsession
    refine hfetch.spares.grants _ (h.issued j q session hsession) fun htaken => ?_
    obtain ⟨own, hown, htoken⟩ := Option.map_eq_some_iff.mp htaken.symm
    rw [← hself] at hown
    exact hother (h.distinct j i q profile session own hsession hown htoken.symm)

/-- **A fetch keeps all sessions apart.** The session that it leaves presents a token that has just
been given out, which no other session can have. -/
theorem Apart.fetch (h : Apart s.client sessions) (hself : sessions i = s.sessions)
    (hfetch : FetchedAs s profile reply after) (hlater : later i = after.sessions)
    (hothers : ∀ j, j ≠ i → later j = sessions j) : Apart after.client later := by
  have hnew : ∀ session, (later i).get? profile = some session →
      after.client.Issued session.token ∧ ¬ s.client.Issued session.token ∧
        after.client.Granted profile session.token := by
    rw [hlater]
    exact hfetch.renewed
  have hkept : ∀ {j q}, ¬ (j = i ∧ q = profile) → ∀ session, (later j).get? q = some session →
      (sessions j).get? q = some session := by
    intro j q hother session hsession
    rwa [(h.of_other hself hfetch hlater hothers hother).1] at hsession
  constructor
  · intro j q session hsession
    by_cases hother : j = i ∧ q = profile
    · obtain ⟨rfl, rfl⟩ := hother
      exact (hnew session hsession).1
    · exact (h.issued j q session (hkept hother session hsession)).mono hfetch.spares.issued
  · intro j q session hsession
    by_cases hother : j = i ∧ q = profile
    · obtain ⟨rfl, rfl⟩ := hother
      exact (hnew session hsession).2.2
    · have hbefore := hkept hother session hsession
      rw [Granted, (h.of_other hself hfetch hlater hothers hother).2 session hbefore]
      exact h.granted j q session hbefore
  · -- The session of the fetch holds a new token, so no other one can have it.
    intro j k p q a b ha hb hsame
    by_cases hj : j = i ∧ p = profile <;> by_cases hk : k = i ∧ q = profile
    · exact ⟨hj.1.trans hk.1.symm, hj.2.trans hk.2.symm⟩
    · obtain ⟨rfl, rfl⟩ := hj
      have hissued := h.issued k q b (hkept hk b hb)
      exact absurd (hsame ▸ hissued) (hnew a ha).2.1
    · obtain ⟨rfl, rfl⟩ := hk
      have hissued := h.issued j p a (hkept hj a ha)
      exact absurd (hsame ▸ hissued) (hnew b hb).2.1
    · exact h.distinct j k p q a b (hkept hj a ha) (hkept hk b hb) hsame

/-- **A fetch leaves the standing of the other sessions** as it is: each of them keeps its token,
and what the token stands for. -/
theorem Apart.standing?_of_other (h : Apart s.client sessions) (hself : sessions i = s.sessions)
    (hfetch : FetchedAs s profile reply after) (hlater : later i = after.sessions)
    (hothers : ∀ j, j ≠ i → later j = sessions j) {j : ι} {q : String}
    (hother : ¬ (j = i ∧ q = profile)) :
    standing? after.client (later j) q = standing? s.client (sessions j) q := by
  obtain ⟨hsame, hgrants⟩ := h.of_other hself hfetch hlater hothers hother
  rw [standing?, standing?, hsame]
  refine Option.map_congr fun session hsession => ?_
  rw [delivered, hgrants session hsession, delivered]

/-- A fetch of a store on its own leaves the standing of its other sessions as it is. -/
theorem FetchedAs.standing?_of_other (hfetch : FetchedAs s profile reply after)
    (h : Apart s.client (fun _ : Unit => s.sessions)) {q : String} (hother : q ≠ profile) :
    standing? after.client after.sessions q = standing? s.client s.sessions q := by
  have hothers : ∀ j : Unit, j ≠ () → (fun _ : Unit => after.sessions) j = s.sessions :=
    fun _ hne => absurd rfl hne
  exact h.standing?_of_other (i := ()) (j := ()) rfl hfetch rfl hothers fun hsame =>
    hother hsame.2

end Apart

/-! ### Changes from outside -/

/-- A change of the store that takes no token back and makes nothing fail. The profiles change by
themselves, whatever tokens there are. -/
structure Harmless (change : Configurations → Configurations) : Prop where
  profiles : ∃ f : Dict Profile → Dict Profile, ∀ s, (change s).profiles = f s.profiles
  grants (s : Configurations) (token : String) : s.Issued token →
    (change s).grants.get? token = s.grants.get? token
  issued (s : Configurations) : s.issued ≤ (change s).issued
  calm (s : Configurations) : s.Calm → (change s).Calm

theorem harmless_setProfile (profile content : String) :
    Harmless fun s => s.setProfile profile content where
  profiles := ⟨fun profiles => profiles.insert profile
    ⟨Text.encode content, ((profiles.get? profile).map (·.version + 1)).getD 0⟩, fun _ => rfl⟩
  grants _ _ _ := rfl
  issued _ := le_rfl
  calm _ h := ⟨h.recorder, h.polls⟩

theorem harmless_clearFailures :
    Harmless fun s => { s with recorder := s.recorder.clearFailures } where
  profiles := ⟨id, fun _ => rfl⟩
  grants _ _ _ := rfl
  issued _ := le_rfl
  calm _ h := ⟨fun _ => rfl, h.polls⟩

section Harmless

variable {change : Configurations → Configurations}

/-- A harmless change keeps the sessions apart. -/
theorem Harmless.apart {ι : Type} {sessions : ι → Dict Session} (h : Harmless change)
    {client : Configurations} (hapart : Apart client sessions) :
    Apart (change client) sessions where
  issued i profile session hsession :=
    (hapart.issued i profile session hsession).mono (h.issued client)
  granted i profile session hsession := by
    rw [Granted, h.grants client _ (hapart.issued i profile session hsession)]
    exact hapart.granted i profile session hsession
  distinct := hapart.distinct

/-- A harmless change leaves all standings as they are. -/
theorem Harmless.standing?_eq {ι : Type} {sessions : ι → Dict Session} (h : Harmless change)
    {client : Configurations} (hapart : Apart client sessions) (i : ι) (profile : String) :
    standing? (change client) (sessions i) profile = standing? client (sessions i) profile := by
  rw [standing?, standing?]
  refine Option.map_congr fun session hsession => ?_
  rw [delivered, h.grants client _ (hapart.issued i profile session hsession), delivered]

end Harmless

end CachedParameters.Memory.Configurations
