import CachedParameters.Store.Table
import CachedParameters.Text.Bytes
import CachedParameters.Store.Parameters

/-!
# A cloud service, its requests and its attributes

A `Request` is what a client asks of a cloud service, and an `Answer` holds what came back, in
which every field may be missing. A `Service` answers from a list, one answer per request, and
keeps the requests; with no answer left it fails. So a statement about all services ranges over all
lists of answers.

A cloud table knows more kinds of attributes (`AttributeValue`) than a `RawValue` can hold. Texts,
numbers, bytes and truth values become raw values (`to_item`); an attribute of any other kind is as
good as missing. An attribute is written as a document with one member, which is named for its kind.
-/

namespace CachedParameters.Cloud

/-! ### Attributes -/

/-- An attribute. A number is kept as its text, and an attribute of no value says so with a flag of
its own. -/
inductive Attribute where
  | text (content : String)
  | number (digits : String)
  | bytes (content : List UInt8)
  | flag (value : Bool)
  | null (value : Bool)
  | texts (contents : List String)
  | numbers (digits : List String)
  | list (elements : List Attribute)
  | map (members : List (String × Attribute))
  deriving Inhabited

/-- The attributes of an item, or of a position in a listing. -/
abbrev AttributeMap := Dict Attribute

namespace Attribute

/-- The raw value of an attribute, if it has one. -/
def raw? : Attribute → Option RawValue
  | .text content => some (.text content)
  | .number digits => some (.text digits)
  | .bytes content => some (.bytes content)
  | .flag value => some (.text (if value then "true" else "false"))
  | .null _ | .texts _ | .numbers _ | .list _ | .map _ => none

mutual

/-- An attribute as a document of the protocol, where the type of the attribute is the name of the
only member. -/
def toDocument : Attribute → Document
  | .text content => .object [("S", .text content)]
  | .number digits => .object [("N", .text digits)]
  | .bytes content => .object [("B", .text (Hex.encode content))]
  | .flag value => .object [("BOOL", .bool value)]
  | .null value => .object [("NULL", .bool value)]
  | .texts contents => .object [("SS", .list (contents.map .text))]
  | .numbers digits => .object [("NS", .list (digits.map .text))]
  | .list elements => .object [("L", .list (elementDocuments elements))]
  | .map members => .object [("M", .ofDict (.ofList (memberDocuments members)))]

def elementDocuments : List Attribute → List Document
  | [] => []
  | element :: rest => toDocument element :: elementDocuments rest

def memberDocuments : List (String × Attribute) → List (String × Document)
  | [] => []
  | (name, value) :: rest => (name, toDocument value) :: memberDocuments rest

end

end Attribute

namespace AttributeMap

/-- The attributes that have raw values (`to_item`), which are texts, numbers as they are written,
bytes and truth values. The others are left out. -/
def toItem (attributes : AttributeMap) : Item :=
  .ofList <| attributes.entries.filterMap fun entry =>
    (entry.2.raw?).map fun value => (entry.1, value)

def toDocument (attributes : AttributeMap) : Document :=
  .ofDict (attributes.mapEntries fun _ value => value.toDocument)

end AttributeMap

/-! ### Requests and answers -/

/-- A request to a cloud service, with the arguments that the client puts into it. -/
inductive Request where
  | getParameter (name : String) (decrypt : Bool)
  | getParametersByPath (request : PathRequest) (nextToken : Option String)
  | getParameters (names : List String) (decrypt : Bool)
  | getSecretValue (request : SecretRequest)
  | startSession (application environment profile : String)
  | getLatestConfiguration (token : String)
  | getItem (request : TableRequest)
  | query (request : TableRequest) (start : Option AttributeMap)

namespace Request

/-- The name of the operation that is requested. -/
def operation : Request → String
  | .getParameter .. => "GetParameter"
  | .getParametersByPath .. => "GetParametersByPath"
  | .getParameters .. => "GetParameters"
  | .getSecretValue _ => "GetSecretValue"
  | .startSession .. => "StartConfigurationSession"
  | .getLatestConfiguration _ => "GetLatestConfiguration"
  | .getItem _ => "GetItem"
  | .query .. => "Query"

/-- Whether a request holds what its operation needs: a poll has to present a token. An incomplete
request fails before it is answered, but it is sent. -/
def isComplete : Request → Bool
  | .getLatestConfiguration token => token != ""
  | _ => true

def optionalText : Option String → Document
  | some text => .text text
  | none => .null

/-- The key of a table request, as the attribute it is compared with. -/
def keyAttribute (request : TableRequest) : Attribute := .text request.key

/-- What a request says, member by member. It is kept with the request, so that a statement about
calls can speak of their arguments. -/
def fields : Request → List (String × Document)
  | .getParameter name decrypt => [("name", .text name), ("with_decryption", .bool decrypt)]
  | .getParametersByPath request nextToken =>
    [("path", .text request.path), ("recursive", .bool request.recursive),
      ("with_decryption", .bool request.decrypt), ("next_token", optionalText nextToken)]
  | .getParameters names decrypt =>
    [("names", .list (names.map .text)), ("with_decryption", .bool decrypt)]
  | .getSecretValue request =>
    [("secret_id", .text request.secretId), ("version_id", optionalText request.versionId),
      ("version_stage", optionalText request.versionStage)]
  | .startSession application environment profile =>
    [("application", .text application), ("environment", .text environment),
      ("profile", .text profile)]
  | .getLatestConfiguration token => [("token", .text token)]
  | .getItem request =>
    [("table_name", .text request.tableName),
      ("key", .object [(request.keyAttr, (keyAttribute request).toDocument)]),
      ("consistent_read", .bool request.consistentRead)]
  | .query request start =>
    [("table_name", .text request.tableName), ("condition", .text "#key = :key"),
      ("names", .object [("#key", .text request.keyAttr)]),
      ("values", .object [(":key", (keyAttribute request).toDocument)]),
      ("consistent_read", .bool request.consistentRead),
      ("start", match start with | some position => position.toDocument | none => .null)]

/-- The text of a request: the operation and the document of the fields. -/
def render (request : Request) : String :=
  request.operation ++ " " ++ (Document.ofDict (.ofList request.fields)).render

end Request

/-- A parameter as a service describes it. -/
structure ParameterRecord where
  name : Option String := none
  value : Option String := none
  deriving DecidableEq, Repr

/-- What a service sends back. Every operation looks at some of the fields and passes over the
others, and any field may be missing or empty. -/
structure Answer where
  parameter : Option ParameterRecord := none
  parameters : List ParameterRecord := []
  invalid : List String := []
  nextToken : Option String := none
  secretString : Option String := none
  secretBinary : Option (List UInt8) := none
  token : Option String := none
  configuration : Option (List UInt8) := none
  item : Option AttributeMap := none
  items : List AttributeMap := []
  lastEvaluatedKey : Option AttributeMap := none

/-- A service that answers from a list, the oldest answer first, and keeps the requests received. An
answer of `none` is a refusal. -/
structure Service where
  answers : List (Option Answer) := []
  requests : List Request := []

namespace Service

/-- Puts an answer behind those that the service still has to give; none stands for a failure. -/
def respond (s : Service) (answer : Option Answer) : Service :=
  { s with answers := s.answers ++ [answer] }

/-- Sends a request and reads the answer; an incomplete request uses up an answer and fails. -/
def send {α : Type} (request : Request) (read : Answer → Except Error α) : Call Service α :=
  fun s =>
    let requests := s.requests ++ [request]
    match s.answers with
    | some answer :: answers =>
      (if request.isComplete then read answer else .error (.serviceFailed request.operation),
        ⟨answers, requests⟩)
    | none :: answers => (.error (.serviceFailed request.operation), ⟨answers, requests⟩)
    | [] => (.error (.serviceFailed request.operation), ⟨[], requests⟩)

theorem answers_send_lt {α : Type} {request : Request} {read : Answer → Except Error α}
    {s s' : Service} {a : α} (h : send request read s = (.ok a, s')) :
    s'.answers.length < s.answers.length := by
  rw [send] at h
  split at h
  · rename_i answer answers hs
    simp only [Prod.mk.injEq] at h
    obtain ⟨-, rfl⟩ := h
    simp [hs]
  · simp at h
  · simp at h

end Service

end CachedParameters.Cloud
