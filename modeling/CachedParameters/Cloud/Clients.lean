import CachedParameters.Cloud.Service
import CachedParameters.Store.Configurations

/-!
# Clients of cloud services

The clients of the four stores, on top of a cloud `Service` (the clients of `AwsBackends`). They put
the arguments of a call into a request and take what the store needs from the answer; what is
missing there either counts as empty or is an error.
-/

namespace CachedParameters.Cloud

/-! ### Parameters -/

/-- The parameters of which a name and a value are given. -/
def completeParameters (records : List ParameterRecord) : List (String × String) :=
  records.filterMap fun record =>
    match record.name, record.value with
    | some name, some value => some (name, value)
    | _, _ => none

/-- The value of the parameter in an answer. -/
def readParameter (name : String) (answer : Answer) : Except Error String :=
  match answer.parameter.bind (·.value) with
  | some value => .ok value
  | none => .error (.parameterWithoutValue name)

/-- The client of a parameter store. A parameter of a listing or a bulk that lacks a name or a value
is left out, while a single one without a value is a failure. -/
def parameterClient : ParameterClient Service where
  getParameter name decrypt _ := Service.send (.getParameter name decrypt) (readParameter name)
  getByPath request _ :=
    { page := fun token =>
        Service.send (.getParametersByPath request token) fun answer =>
          .ok (completeParameters answer.parameters, answer.nextToken)
      left := fun _ s => s.answers.length
      left_lt := Service.answers_send_lt }
  getParameters names decrypt _ :=
    Service.send (.getParameters names decrypt) fun answer =>
      .ok ⟨.ofList (completeParameters answer.parameters), answer.invalid⟩

/-! ### Secrets -/

/-- The value of the secret in an answer; a text goes before bytes. -/
def readSecret (id : String) (answer : Answer) : Except Error RawValue :=
  match answer.secretString, answer.secretBinary with
  | some text, _ => .ok (.text text)
  | none, some bytes => .ok (.bytes bytes)
  | none, none => .error (.secretWithoutValue id)

/-- The client of a secret store. The version that is asked for goes into the request as it is. -/
def secretClient : SecretClient Service where
  getSecretValue request _ :=
    Service.send (.getSecretValue request) (readSecret request.secretId)

/-! ### Configurations -/

/-- The token of a new session; an answer without one is a failure that names the profile. -/
def readSession (profile : String) (answer : Answer) : Except Error String :=
  match answer.token with
  | some token => .ok token
  | none => .error (.noSessionToken profile)

/-- The outcome of a poll; an answer without a document brings nothing new. -/
def readLatest (answer : Answer) : Except Error LatestConfiguration :=
  match answer.nextToken with
  | some nextToken => .ok ⟨answer.configuration.getD [], nextToken⟩
  | none => .error .noPollToken

/-- The client of a configuration store. It only passes tokens on; which token belongs to which
session is the business of the store. -/
def configurationClient : ConfigurationClient Service where
  startSession application environment profile _ :=
    Service.send (.startSession application environment profile) (readSession profile)
  getLatest token _ := Service.send (.getLatestConfiguration token) readLatest

/-! ### Tables -/

/-- The client of a table. A query is continued from the key that the answer before gives, and the
answers that are left bound the pages. -/
def tableClient : TableClient Service AttributeMap where
  getItem request _ :=
    Service.send (.getItem request) fun answer => .ok (answer.item.map (·.toItem))
  query request _ :=
    { page := fun start =>
        Service.send (.query request start) fun answer =>
          .ok (answer.items.map (·.toItem), answer.lastEvaluatedKey)
      left := fun _ s => s.answers.length
      left_lt := Service.answers_send_lt }

end CachedParameters.Cloud
