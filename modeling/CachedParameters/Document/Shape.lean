import CachedParameters.Document
import CachedParameters.Real
import CachedParameters.Text.Quoted

/-!
# Typed readings of documents

A `Reading α` takes a document for a value of the type `α` or says why it is none, and `deserialize`
is such a reading of a decoded value. Readings of lists and objects are made from readings of what
they hold, and report the first fault from left to right, members in the order of their names.

A whole number is read as a real number too, but a real number never as a whole one.
-/

namespace CachedParameters

/-- What stands in a document where something else was expected. Of lists and objects only that they
are such is told. -/
inductive Found where
  | null
  | bool (value : Bool)
  | integer (value : Int)
  | real (value : Float)
  | text (value : String)
  | list
  | object
  deriving DecidableEq

/-- How a failure describes what was found in place of what was expected. -/
def Found.message : Found → String
  | .null => "null"
  | .bool value => "boolean `" ++ toString value ++ "`"
  | .integer value => "integer `" ++ toString value ++ "`"
  | .real value => "floating point `" ++ Real.render value ++ "`"
  | .text value => "string " ++ Text.quote value
  | .list => "sequence"
  | .object => "map"

/-- Why a document is no value of a type: it is of another kind, a whole number lies outside the
range of the type, an object lacks a field, or a list has too few or too many elements for the
fields of a record. -/
inductive ShapeFault where
  | invalidType (found : Found) (expected : String)
  | outOfRange (value : Int) (expected : String)
  | missingField (name : String)
  | tooShort (length : Nat) (expected : String)
  | tooLong (length : Nat)
  deriving DecidableEq

/-- The wording of a fault. It stands in the message that `deserialize` fails with. -/
def ShapeFault.message : ShapeFault → String
  | .invalidType found expected => "invalid type: " ++ found.message ++ ", expected " ++ expected
  | .outOfRange value expected =>
    "invalid value: integer `" ++ toString value ++ "`, expected " ++ expected
  | .missingField name => "missing field `" ++ name ++ "`"
  | .tooShort length expected =>
    "invalid length " ++ toString length ++ ", expected " ++ expected
  | .tooLong length =>
    "invalid length " ++ toString length ++ ", expected fewer elements in array"

/-- A reading of documents as values of a type. -/
abbrev Reading (α : Type) := Document → Except ShapeFault α

/-- What a document is, for a message. -/
def Document.found : Document → Found
  | .null => .null
  | .bool value => .bool value
  | .integer value => .integer value
  | .real value => .real value
  | .text value => .text value
  | .list _ => .list
  | .object _ => .object

/-- Refuses a document of the wrong kind. -/
def Document.mistyped {α : Type} (d : Document) (expected : String) : Except ShapeFault α :=
  .error (.invalidType d.found expected)

namespace Reading

def document : Reading Document := .ok

def bool : Reading Bool
  | .bool value => .ok value
  | d => d.mistyped "a boolean"

def text : Reading String
  | .text value => .ok value
  | d => d.mistyped "a string"

/-- A whole number from `least` up to `greatest`; `name` names the type in messages. -/
def integer (least greatest : Int) (name : String) : Reading Int
  | .integer value =>
    if least ≤ value ∧ value ≤ greatest then .ok value else .error (.outOfRange value name)
  | d => d.mistyped name

/-- A whole number of one byte. -/
def byte : Reading Int := integer 0 0xFF "u8"

/-- A whole number of four bytes. -/
def count : Reading Int := integer 0 0xFFFFFFFF "u32"

/-- A signed whole number of eight bytes. -/
def long : Reading Int := integer (-0x8000000000000000) 0x7FFFFFFFFFFFFFFF "i64"

/-- A real number; whole numbers are rounded to the nearest one. -/
def real : Reading Float
  | .real value => .ok value
  | .integer value => .ok (Float.ofInt value)
  | d => d.mistyped "f64"

/-- Null as nothing, and any other document as the inner reading has it. -/
def optional {α : Type} (inner : Reading α) : Reading (Option α)
  | .null => .ok none
  | d =>
    match inner d with
    | .ok value => .ok (some value)
    | .error fault => .error fault

/-- Every element of a list of documents. -/
def elements {α : Type} (inner : Reading α) : List Document → Except ShapeFault (List α)
  | [] => .ok []
  | d :: rest =>
    match inner d with
    | .error fault => .error fault
    | .ok value =>
      match elements inner rest with
      | .error fault => .error fault
      | .ok values => .ok (value :: values)

/-- The document of every member, beside its name. -/
def members {α : Type} (inner : Reading α) :
    List (String × Document) → Except ShapeFault (List (String × α))
  | [] => .ok []
  | (name, d) :: rest =>
    match inner d with
    | .error fault => .error fault
    | .ok value =>
      match members inner rest with
      | .error fault => .error fault
      | .ok values => .ok ((name, value) :: values)

/-- A list. -/
def list {α : Type} (inner : Reading α) : Reading (List α)
  | .list values => elements inner values
  | d => d.mistyped "a sequence"

/-- An object whose members are all of one type. -/
def dict {α : Type} (inner : Reading α) : Reading (Dict α)
  | .object values =>
    match members inner values with
    | .ok values => .ok (.ofList values)
    | .error fault => .error fault
  | d => d.mistyped "a map"

end Reading

end CachedParameters
