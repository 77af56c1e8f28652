import CachedParameters.Source
import CachedParameters.Store.Parameters

/-!
# Recorded calls, and a secret store in memory

Every backend in memory keeps a short text of each call made to it, and calls of one's choice can
be made to fail. A call is recorded whether it fails or not. What all of these backends have of
this is a `Recorder`.

The simplest of them is `Memory.Secrets` (`FakeSecretStore`). It keeps one version of each secret,
whatever version is asked for, and remembers the requests that were not made to fail.
-/

namespace CachedParameters.Memory

/-! ### Recorded calls -/

/-- The calls made so far, the oldest first, and which calls are to fail. -/
structure Recorder where
  calls : List String := []
  failing : String → Bool := fun _ => false

namespace Recorder

/-- Records a call, and fails if it is one to fail. The call is recorded in either case, so the
record tells what was attempted. -/
def record (call : String) : Call Recorder Unit := fun r =>
  (if r.failing call then .error (.injected call) else .ok (),
    { r with calls := r.calls ++ [call] })

/-- Makes the calls that satisfy `failing` fail, and no others. -/
def failWhen (r : Recorder) (failing : String → Bool) : Recorder := { r with failing }

def clearFailures (r : Recorder) : Recorder := { r with failing := fun _ => false }

end Recorder

/-! ### Secrets -/

/-- A secret store in memory: the calls made, the secrets, and the requests, the oldest first. -/
structure Secrets where
  recorder : Recorder := {}
  secrets : Dict RawValue := .empty
  requests : List SecretRequest := []

namespace Secrets

/-- Keeps a secret in place of the one of the same name. -/
def put (s : Secrets) (name : String) (value : RawValue) : Secrets :=
  { s with secrets := s.secrets.insert name value }

/-- Reads a secret. The version that is asked for is remembered with the request and does not matter
otherwise. -/
def getSecretValue (request : SecretRequest) : Call Secrets RawValue := fun s =>
  match Recorder.record ("get_secret_value:" ++ request.secretId) s.recorder with
  | (.error e, recorder) => (.error e, { s with recorder })
  | (.ok (), recorder) =>
    let after := { s with recorder, requests := s.requests ++ [request] }
    match s.secrets.get? request.secretId with
    | some value => (.ok value, after)
    | none => (.error (.secretNotFound request.secretId), after)

/-- The store as the client of a secret store. -/
def client : SecretClient Secrets where
  getSecretValue request _ := getSecretValue request

end Secrets

end CachedParameters.Memory
