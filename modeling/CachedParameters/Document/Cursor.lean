/-!
# Places in a text of bytes

A `Cursor` is what is left of a text together with the line and column reached. Lines count
from one; the column is the number of bytes of the line that lie behind.

A fault is placed in one of two ways: after the bytes that were taken (`Cursor.failHere`), or
one byte further, at the byte that was only looked at (`Cursor.failNext`). A line feed that is
looked at belongs to the next line.
-/

namespace CachedParameters.Document

/-- A line, the first one being 1, and the number of bytes of this line that lie behind. -/
structure Position where
  line : Nat
  column : Nat
  deriving DecidableEq, Repr

def Position.start : Position := ⟨1, 0⟩

/-- The position behind one more byte. Lines are counted by their ends and columns in bytes, so a
line feed leads to column zero of the next line. -/
def Position.after (p : Position) (byte : UInt8) : Position :=
  if byte = 0x0A then ⟨p.line + 1, 0⟩ else ⟨p.line, p.column + 1⟩

def Position.afterAll (p : Position) (bytes : List UInt8) : Position := bytes.foldl after p

/-- What can be wrong with the text of a document. It can end inside of something, and what stands
there can be something else than what may follow: a word that begins like `null`, `true` or `false`
and is none of them, a comma with nothing behind it, a name that is not a quoted text. A quoted text
can hold a control character, an escape that is not known, half of a surrogate pair, or bytes that
are no UTF-8. A number can be misspelled or exceed all finite numbers, lists and objects can nest
too deep, and something can stand behind the value. -/
inductive Fault where
  | endInValue
  | endInList
  | endInObject
  | endInText
  | expectedValue
  | expectedWord
  | expectedColon
  | expectedListEnd
  | expectedObjectEnd
  | trailingComma
  | nameNotText
  | controlCharacter
  | invalidEscape
  | loneSurrogate
  | expectedSurrogate
  | invalidUtf8
  | invalidNumber
  | numberTooLarge
  | tooDeep
  | trailingCharacters
  deriving DecidableEq, Repr

/-- The wording of a fault, as it reaches the caller in the message of a transform that failed. -/
def Fault.message : Fault → String
  | .endInValue => "EOF while parsing a value"
  | .endInList => "EOF while parsing a list"
  | .endInObject => "EOF while parsing an object"
  | .endInText => "EOF while parsing a string"
  | .expectedValue => "expected value"
  | .expectedWord => "expected ident"
  | .expectedColon => "expected `:`"
  | .expectedListEnd => "expected `,` or `]`"
  | .expectedObjectEnd => "expected `,` or `\x7d`"
  | .trailingComma => "trailing comma"
  | .nameNotText => "key must be a string"
  | .controlCharacter => "control character (\\u0000-\\u001F) found while parsing a string"
  | .invalidEscape => "invalid escape"
  | .loneSurrogate => "lone leading surrogate in hex escape"
  | .expectedSurrogate => "unexpected end of hex escape"
  | .invalidUtf8 => "invalid unicode code point"
  | .invalidNumber => "invalid number"
  | .numberTooLarge => "number out of range"
  | .tooDeep => "recursion limit exceeded"
  | .trailingCharacters => "trailing characters"

/-- A fault and where it was found. -/
structure ReadError where
  fault : Fault
  position : Position
  deriving DecidableEq, Repr

/-- The wording of a fault and its place. -/
def ReadError.message (e : ReadError) : String :=
  e.fault.message ++ " at line " ++ toString e.position.line ++
    " column " ++ toString e.position.column

/-- The bytes of a text that have not been taken, and the position behind those that have. -/
structure Cursor where
  rest : List UInt8
  position : Position
  deriving DecidableEq, Repr

namespace Cursor

def start (bytes : List UInt8) : Cursor := ⟨bytes, .start⟩

/-- Reports a fault behind the bytes that were taken. -/
def failHere {α : Type} (c : Cursor) (fault : Fault) : Except ReadError α :=
  .error ⟨fault, c.position⟩

/-- Reports a fault at the next byte, or at the end of the text if there is none. -/
def failNext {α : Type} (c : Cursor) (fault : Fault) : Except ReadError α :=
  match c.rest with
  | [] => .error ⟨fault, c.position⟩
  | byte :: _ => .error ⟨fault, c.position.after byte⟩

def skip (c : Cursor) : Cursor :=
  match c.rest with
  | [] => c
  | byte :: rest => ⟨rest, c.position.after byte⟩

/-- Takes bytes as long as they satisfy `p`. -/
def skipWhile (p : UInt8 → Bool) (c : Cursor) : Cursor :=
  ⟨c.rest.dropWhile p, c.position.afterAll (c.rest.takeWhile p)⟩

/-- Whether a byte is white space between the parts of a document. -/
def isSpace (byte : UInt8) : Bool :=
  byte == 0x20 || byte == 0x09 || byte == 0x0A || byte == 0x0D

/-- Takes white space. -/
def skipSpace (c : Cursor) : Cursor := c.skipWhile isSpace

end Cursor

end CachedParameters.Document
