import CachedParameters.Base64
import CachedParameters.Document.Cursor
import CachedParameters.Document.Shape
import CachedParameters.Text.Numeral

/-!
# Failures and what they say

An `Error` is the cause of a failure, with what is needed to tell it. A cause that this library does
not know itself, such as the failure of a backend that someone else wrote, arrives as
`Error.reported`.

The kind of a failure, its `ErrorKind`, says whether a backend failed, a stored value could not be
decoded, or the library was misused. It follows from the cause, so no failure can carry a kind that
its wording contradicts. `Error.message` words a failure, and `Error.causes` tells what lies
behind it.
-/

namespace CachedParameters

/-- Where a failure comes from: a backend call failed, a stored value could not be decoded, or the
library or a request to it was set up wrongly. -/
inductive ErrorKind where
  | retrieval | transform | configuration
  deriving DecidableEq, Repr

/-- The name of a kind (`as_str`), in small letters. It is the part of an error that callers may
rely on. -/
def ErrorKind.name : ErrorKind → String
  | .retrieval => "retrieval"
  | .transform => "transform"
  | .configuration => "configuration"

/-- The attributes that describe a table, each of which must be given. They are listed in the order
in which they are looked at, so of two blank ones the first is reported. -/
inductive TableField where
  | tableName | keyAttr | sortAttr | valueAttr
  deriving DecidableEq, Repr

def TableField.name : TableField → String
  | .tableName => "table_name"
  | .keyAttr => "key_attr"
  | .sortAttr => "sort_attr"
  | .valueAttr => "value_attr"

/-- The variable that holds the default freshness window, in whole seconds. -/
def maxAgeVariable : String := "PARAMSTORE_MAX_AGE"

/-- The variable that holds the default decrypt flag of the parameter store. -/
def decryptVariable : String := "PARAMSTORE_SSM_DECRYPT"

/-- The name under which a batch reports its failures, and which no parameter of a batch may
bear. -/
def errorsKey : String := "_errors"

/-- The most names that the parameter store looks up in one call. -/
def maxBulkNames : Nat := 10

/-- The cause of a failure. The first one is told by someone else, and comes with the causes behind
it, the nearest first. Then come values that cannot be decoded and documents that do not have the
shape of a type, mistakes in the settings, in a request or in the description of a store, and last
everything that a backend can fail with: what it does not have, tokens that it refuses, calls that
were made to fail, and answers of cloud services from which something is missing. -/
inductive Error where
  | reported (kind : ErrorKind) (text : String) (causes : List String)
  | notDocument (name : String) (reason : Document.ReadError)
  | notBase64 (name : String) (reason : Base64.Fault)
  | textUntyped
  | bytesUntyped
  | misshapen (reason : ShapeFault)
  | unknownTransform (name : String)
  | invalidMaxAge (text : String) (reason : Numeral.Fault)
  | invalidDecrypt (text : String)
  | reservedName
  | blankTableField (field : TableField)
  | blankApplication
  | secretsNotListed (path : String)
  | profilesNotListed (path : String)
  | missing (names : List String)
  | noItem (keyAttr name table : String)
  | noAttribute (key attr : String)
  | sortNotText (attr path : String)
  | injected (call : String)
  | notFound (name : String)
  | parameterNotFound (name : String)
  | secretNotFound (id : String)
  | profileNotFound (profile : String)
  | invalidPageToken (token : String) (reason : Numeral.Fault)
  | tooManyNames (count : Nat)
  | invalidToken (token : String)
  | pollFailed
  | serviceFailed (operation : String)
  | parameterWithoutValue (name : String)
  | secretWithoutValue (id : String)
  | noSessionToken (profile : String)
  | noPollToken
  deriving DecidableEq

namespace Error

/-- A failure that is told by its text alone. -/
def ofText (kind : ErrorKind) (text : String) : Error := .reported kind text []

/-- A failure that wraps another one: the texts along the chain of causes, the outermost first.
It reads as the failure it wraps. -/
def ofChain (kind : ErrorKind) (chain : List String) : Error :=
  .reported kind (chain.headD "") chain

/-! ### What failures say -/

/-- Where a failure comes from. Apart from failures that are reported by someone else, the kind
follows from the cause. -/
def kind : Error → ErrorKind
  | .reported kind _ _ => kind
  | .notDocument .. | .notBase64 .. | .textUntyped | .bytesUntyped | .misshapen _ => .transform
  | .unknownTransform _ | .invalidMaxAge .. | .invalidDecrypt _ | .reservedName
  | .blankTableField _ | .blankApplication | .secretsNotListed _ | .profilesNotListed _ =>
    .configuration
  | .missing _ | .noItem .. | .noAttribute .. | .sortNotText .. | .injected _ | .notFound _
  | .parameterNotFound _ | .secretNotFound _ | .profileNotFound _ | .invalidPageToken ..
  | .tooManyNames _ | .invalidToken _ | .pollFailed | .serviceFailed _
  | .parameterWithoutValue _ | .secretWithoutValue _ | .noSessionToken _ | .noPollToken =>
    .retrieval

/-- The wording of a failure, with the names, paths and fields that it is about. -/
def message : Error → String
  | .reported _ text _ => text
  | .notDocument name reason =>
    "unable to decode json value of parameter '" ++ name ++ "': " ++ reason.message
  | .notBase64 name reason =>
    "unable to decode base64 value of parameter '" ++ name ++ "': " ++ reason.message
  | .textUntyped => "text value cannot be deserialized, request the json transform"
  | .bytesUntyped => "binary value cannot be deserialized, request the json transform"
  | .misshapen reason => reason.message
  | .unknownTransform name =>
    "unknown transform '" ++ name ++ "', expected one of none, json, binary, auto"
  | .invalidMaxAge text reason =>
    maxAgeVariable ++ " must be a whole number of seconds, got '" ++ text ++ "': " ++
      reason.message
  | .invalidDecrypt text => decryptVariable ++ " must be a boolean, got '" ++ text ++ "'"
  | .reservedName =>
    "parameter name '" ++ errorsKey ++ "' is reserved for reporting failed names"
  | .blankTableField field => "table store " ++ field.name ++ " must not be empty"
  | .blankApplication => "application and environment must not be empty"
  | .secretsNotListed path => "the secret store cannot list secrets under '" ++ path ++ "'"
  | .profilesNotListed path =>
    "the application configuration store cannot list profiles under '" ++ path ++ "'"
  | .missing names => "failed to retrieve parameters: " ++ ", ".intercalate names
  | .noItem keyAttr name table =>
    "no item with " ++ keyAttr ++ "='" ++ name ++ "' in table '" ++ table ++ "'"
  | .noAttribute key attr => "item '" ++ key ++ "' has no attribute '" ++ attr ++ "'"
  | .sortNotText attr path =>
    "sort attribute '" ++ attr ++ "' of an item under '" ++ path ++ "' is not text"
  | .injected call => "injected failure for " ++ call
  | .notFound name => name ++ " not found"
  | .parameterNotFound name => "parameter " ++ name ++ " not found"
  | .secretNotFound id => "secret " ++ id ++ " not found"
  | .profileNotFound profile => "profile " ++ profile ++ " not found"
  | .invalidPageToken token reason =>
    "invalid next token '" ++ token ++ "': " ++ reason.message
  | .tooManyNames count =>
    "at most " ++ toString maxBulkNames ++ " names per call, got " ++ toString count
  | .invalidToken token => "invalid token " ++ token
  | .pollFailed => "injected poll failure"
  | .serviceFailed operation => operation ++ " failed"
  | .parameterWithoutValue name => "parameter " ++ name ++ " has no value"
  | .secretWithoutValue id => "secret " ++ id ++ " has no value"
  | .noSessionToken profile => "no configuration token for profile " ++ profile
  | .noPollToken => "no next poll token in configuration response"

/-- The texts of the causes behind a failure, the nearest first. A document of the wrong shape is
the only failure of this library that wraps another one. -/
def causes : Error → List String
  | .reported _ _ causes => causes
  | .misshapen reason => [reason.message]
  | _ => []

end Error

end CachedParameters
