import CachedParameters.Memory.Secrets
import CachedParameters.Store.Configurations

/-!
# A configuration store in memory

The `FakeAppConfig`. Every profile has a document and a version, which counts how often the document
was set anew. A token can be presented once. It knows the version that its session has seen, and a
poll brings the document only if that is not the current one.
-/

namespace CachedParameters.Memory

/-- The document of a profile, and how often it was set anew. The version counts in steps of one
from zero, so the `2 ^ 64` at which a machine word would wrap around is out of reach of every run,
and it is kept as a number without a bound. -/
structure Profile where
  content : List UInt8
  version : Nat
  deriving DecidableEq, Repr

/-- What a token stands for: the profile of the session, and the version that the session has seen,
if it has seen any. -/
structure Grant where
  profile : String
  delivered : Option Nat
  deriving DecidableEq, Repr

/-- A configuration store in memory: the calls made, the profiles, the tokens that can be presented,
how many tokens were given out, and whether the next poll is to fail. Each call gives out at most
one token, so `issued` stays far below the `2 ^ 64` at which a machine word would wrap around and
tokens would come back; it is kept as a number without a bound. -/
structure Configurations where
  recorder : Recorder := {}
  profiles : Dict Profile := .empty
  grants : Dict Grant := .empty
  issued : Nat := 0
  failNextPoll : Bool := false

namespace Configurations

/-- Sets the document of a profile (`set_profile`). The version goes up even if the document is the
same, so sessions will be given it again. -/
def setProfile (s : Configurations) (profile content : String) : Configurations :=
  let version := ((s.profiles.get? profile).map (·.version + 1)).getD 0
  { s with profiles := s.profiles.insert profile ⟨Text.encode content, version⟩ }

/-- Gives out a new token. The number of tokens given out so far is part of it, so no token is given
out twice. -/
def issue (s : Configurations) (grant : Grant) : String × Configurations :=
  let token := grant.profile ++ "#" ++ toString s.issued
  (token, { s with issued := s.issued + 1, grants := s.grants.insert token grant })

/-- Opens a session for a profile. The token that is given out has seen no version, so the first
poll with it brings the document. -/
def startSession (application environment profile : String) : Call Configurations String :=
  fun s =>
    let call := "start_session:" ++ application ++ "/" ++ environment ++ "/" ++ profile
    match Recorder.record call s.recorder with
    | (.error e, recorder) => (.error e, { s with recorder })
    | (.ok (), recorder) =>
      if s.profiles.contains profile then
        let (token, s) := issue { s with recorder } ⟨profile, none⟩
        (.ok token, s)
      else (.error (.profileNotFound profile), { s with recorder })

/-- Answers a poll for a token that has been taken in. The new token has seen the current version,
whether the answer brings the document or not. -/
def poll (grant : Grant) : Call Configurations LatestConfiguration := fun s =>
  if s.failNextPoll then (.error .pollFailed, { s with failNextPoll := false })
  else
    match s.profiles.get? grant.profile with
    | none => (.error (.profileNotFound grant.profile), s)
    | some current =>
      let content :=
        if grant.delivered = some current.version then [] else current.content
      let (nextToken, s) := s.issue ⟨grant.profile, some current.version⟩
      (.ok ⟨content, nextToken⟩, s)

/-- Polls with a token, which is used up by it. -/
def getLatest (token : String) : Call Configurations LatestConfiguration := fun s =>
  match Recorder.record ("get_latest_configuration:" ++ token) s.recorder with
  | (.error e, recorder) => (.error e, { s with recorder })
  | (.ok (), recorder) =>
    match s.grants.get? token with
    | none => (.error (.invalidToken token), { s with recorder })
    | some grant => poll grant { s with recorder, grants := s.grants.erase token }

/-- The store as the client of a configuration store. -/
def client : ConfigurationClient Configurations where
  startSession application environment profile _ := startSession application environment profile
  getLatest token _ := getLatest token

end Configurations

end CachedParameters.Memory
