import CachedParameters.Text.Bytes
import CachedParameters.Error
import CachedParameters.Document.Reader
import CachedParameters.Text

/-!
# Raw values, decoded values, and the transforms between them

A backend stores a `RawValue`, which is a text or bytes. Bytes that encode a text are taken for that
text (`from_bytes`), and nothing is lost by this. A caller gets a `ParameterValue`, which is a text,
bytes or a document; only a document can be read as a value of a type (`deserialize`).

A `Transform` says how the one becomes the other. The automatic one goes by the ending of the
parameter's name, and is resolved before anything is kept, so that a name has the same key in the
cache whether its transform was named or found.

## Main results

- `RawValue.bytes_ofBytes`: taking bytes for a value loses nothing;
- `RawValue.ofBytes_eq_text_iff`: bytes are a text exactly when they encode it.
-/

namespace CachedParameters

/-! ### Raw values -/

/-- A value as a backend stores it. The two kinds overlap, as a text is stored as bytes, too;
`RawValue.ofBytes` decides between them. -/
inductive RawValue where
  | text (content : String)
  | bytes (content : List UInt8)
  deriving DecidableEq, Repr, Inhabited

namespace RawValue

/-- The value of stored bytes: a text if they encode one, and otherwise the bytes as they are. -/
def ofBytes (content : List UInt8) : RawValue :=
  match Text.decode? content with
  | some decoded => .text decoded
  | none => .bytes content

/-- The stored bytes; those of a text are its UTF-8 encoding. -/
def toBytes : RawValue → List UInt8
  | .text content => Text.encode content
  | .bytes content => content

/-- The text, if the value is one. -/
def asText? : RawValue → Option String
  | .text content => some content
  | .bytes _ => none

/-- Taking bytes for a value loses nothing. -/
theorem bytes_ofBytes (content : List UInt8) : (ofBytes content).toBytes = content := by
  rw [ofBytes]
  split
  · rename_i text h
    exact (Text.eq_encode_of_decode? h).symm
  · rfl

/-- Bytes are a text exactly when they encode it. -/
theorem ofBytes_eq_text_iff {content : List UInt8} {text : String} :
    ofBytes content = .text text ↔ content = Text.encode text := by
  rw [← Text.decode?_eq_some_iff, ofBytes]
  split
  · rename_i other h
    simp [h]
  · rename_i h
    simp [h]

end RawValue

/-! ### Decoded values -/

/-- A value as a caller gets it: as it was stored, or what a transform made of it. -/
inductive ParameterValue where
  | text (content : String)
  | bytes (content : List UInt8)
  | document (content : Document)
  deriving Inhabited

namespace ParameterValue

/-- The text, if the value is one. -/
def asText? : ParameterValue → Option String
  | .text content => some content
  | _ => none

/-- The bytes, if the value is made of them. -/
def asBytes? : ParameterValue → Option (List UInt8)
  | .bytes content => some content
  | _ => none

/-- The document, if the value is one. -/
def asDocument? : ParameterValue → Option Document
  | .document content => some content
  | _ => none

/-- Reads a document as a value of a type (`deserialize`). Texts and bytes are not taken apart, so a
value that was retrieved without the json transform cannot be read this way. -/
def read {α : Type} (reading : Reading α) : ParameterValue → Except Error α
  | .document content =>
    match reading content with
    | .ok value => .ok value
    | .error fault => .error (.misshapen fault)
  | .text _ => .error .textUntyped
  | .bytes _ => .error .bytesUntyped

end ParameterValue

/-! ### Transforms -/

/-- How a raw value is decoded: not at all, as the text of a document, as the base64 encoding of
bytes, or as the ending of the name says. -/
inductive Transform where
  | plain | json | binary | auto
  deriving DecidableEq, Repr, Inhabited

namespace Transform

/-- The name of a transform (`as_str`), which is what cache keys and messages show. -/
def name : Transform → String
  | .plain => "none"
  | .json => "json"
  | .binary => "binary"
  | .auto => "auto"

/-- The transform of a name, in any case of its letters; no name is the plain one. -/
def ofName (text : String) : Except Error Transform :=
  let small := Text.lower text
  if small = "" ∨ small = "none" then .ok .plain
  else if small = "json" then .ok .json
  else if small = "binary" then .ok .binary
  else if small = "auto" then .ok .auto
  else .error (.unknownTransform small)

/-- The transform to use for a parameter: the ending of its name decides the automatic one, and any
other one stays what it is. Endings are compared as they are written, capitals included. -/
def resolve (transform : Transform) (parameter : String) : Transform :=
  match transform with
  | .auto =>
    if Text.endsWith parameter ".json" then .json
    else if Text.endsWith parameter ".binary" then .binary
    else .plain
  | other => other

/-- Decodes the value of a parameter. Both a document and the encoding of bytes are read from the
stored bytes, whether these are a text or not. -/
def apply (transform : Transform) (parameter : String) (raw : RawValue) :
    Except Error ParameterValue :=
  match transform.resolve parameter with
  | .json =>
    match Document.read raw.toBytes with
    | .ok content => .ok (.document content)
    | .error reason => .error (.notDocument parameter reason)
  | .binary =>
    match Base64.decode raw.toBytes with
    | .ok content => .ok (.bytes content)
    | .error reason => .error (.notBase64 parameter reason)
  | .plain | .auto =>
    match raw with
    | .text content => .ok (.text content)
    | .bytes content => .ok (.bytes content)

end Transform

end CachedParameters
