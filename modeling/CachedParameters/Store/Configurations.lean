import CachedParameters.Source

/-!
# The configuration store

An `AppConfigStore` holds documents, called profiles, for one application in one environment. It is
polled through an `AppConfigClient`: a session (`ProfileSession`) is opened for a profile, and every
poll presents the token that the previous answer (`LatestConfiguration`) gave. A poll that finds
nothing new brings no document, and then the last one received stands.

A session lives as long as its polls succeed. Its token may have been used up by a poll that
failed, so the next fetch opens a new session.
-/

namespace CachedParameters

/-- The answer to a poll: the document, empty if it has not changed since the last poll, and the
token to present next. -/
structure LatestConfiguration where
  content : List UInt8
  nextToken : String
  deriving DecidableEq, Repr

/-- The calls that a configuration store answers: to open a session for a profile, which gives its
first token, and to poll with a token. -/
structure ConfigurationClient (κ : Type) where
  startSession : (application environment profile : String) → BackendOptions → Call κ String
  getLatest : (token : String) → BackendOptions → Call κ LatestConfiguration

/-- An open session of one profile: the token to present next, and the last document received, empty
if there was none. -/
structure Session where
  token : String
  last : List UInt8
  deriving DecidableEq, Repr

/-- A configuration store for one application in one environment. Both are given, so a store that is
there never has to look at that again. -/
structure ConfigurationStore (κ : Type) where
  client : ConfigurationClient κ
  application : String
  environment : String
  given : application ≠ "" ∧ environment ≠ ""

namespace ConfigurationStore

variable {κ : Type}

/-- What a store works on: its client's state and its open sessions, by profile. -/
structure State (κ : Type) where
  client : κ
  sessions : Dict Session := .empty

/-- The store of an application and an environment, both of which must be given. -/
def make (client : ConfigurationClient κ) (application environment : String) :
    Except Error (ConfigurationStore κ) :=
  if h : application ≠ "" ∧ environment ≠ "" then .ok ⟨client, application, environment, h⟩
  else .error .blankApplication

/-- The token to poll with: that of the open session, or that of a new one. It is not kept before
the poll succeeds, so a session that is opened in vain leaves nothing behind. -/
def token (store : ConfigurationStore κ) (profile : String) (options : BackendOptions) :
    Call (State κ) String := fun s =>
  match s.sessions.get? profile with
  | some session => (.ok session.token, s)
  | none =>
    let start := store.client.startSession store.application store.environment profile options
    let (outcome, client) := start s.client
    (outcome, { s with client })

/-- The session after a poll: the new token, and the new document if the poll brought one. -/
def Session.renew (session : Option Session) (latest : LatestConfiguration) : Session where
  token := latest.nextToken
  last :=
    if latest.content.isEmpty then (session.map (·.last)).getD [] else latest.content

/-- Polls for a profile and gives its document. If the poll fails, the session is dropped with its
document, as its token may be used up. -/
def fetchOne (store : ConfigurationStore κ) (profile : String) (options : BackendOptions) :
    Call (State κ) RawValue := fun s =>
  match store.token profile options s with
  | (.error e, s) => (.error e, s)
  | (.ok token, s) =>
    match store.client.getLatest token options s.client with
    | (.error e, client) => (.error e, ⟨client, s.sessions.erase profile⟩)
    | (.ok latest, client) =>
      let session := Session.renew (s.sessions.get? profile) latest
      (.ok (.ofBytes session.last), ⟨client, s.sessions.insert profile session⟩)

/-- The store as a source. It lists nothing. -/
def source (store : ConfigurationStore κ) : Source (State κ) :=
  .ofSingles "appconfig"
    (fun profile options => .ofCall (store.fetchOne profile options))
    (fun path _ => .fail (.profilesNotListed path))

end ConfigurationStore

end CachedParameters
