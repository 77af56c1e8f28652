import CachedParameters.Dict
import CachedParameters.Real

/-!
# Documents

A `Document` is a JSON value: a decoded parameter, or an option of a request. Whole numbers and real
numbers are different values, so `1` and `1.0` are different documents. The members of an object
ascend by name in every well-formed document, and reading and writing keep to well-formed documents.

`Document.render` writes a document without any white space, the members of an object in the
order they are kept in. In a text only the quote, the backslash and the control characters are
written as escapes. The text of a document is read back by `Document.read`, and it is also what
tells the options of a request apart in a cache.

## Main definitions

- `Document.equals`: equality of documents, the real numbers compared as numbers;
- `Document.WellFormed`: whole numbers of a machine word, finite reals, ascending names;
- `Document.depth`: how deep lists and objects nest;
- `Document.render`: the compact text of a document.
-/

namespace CachedParameters

/-- A JSON value. Whole numbers are unbounded here and reals are binary64 words; what a text can
spell is bounded by `Document.WellFormed`. The members of an object are a list of entries and not a
`Dict`, because the type is nested in itself. -/
inductive Document where
  | null
  | bool (value : Bool)
  | integer (value : Int)
  | real (value : Float)
  | text (value : String)
  | list (elements : List Document)
  | object (members : List (String × Document))
  deriving Inhabited

namespace Document

/-- The document of a dictionary of documents. -/
def ofDict (members : Dict Document) : Document := .object members.entries

/-- The truth value, if the document is one. -/
def asBool? : Document → Option Bool
  | .bool value => some value
  | _ => none

/-- The text, if the document is one. -/
def asText? : Document → Option String
  | .text value => some value
  | _ => none

/-! ### Equality -/

mutual

/-- Equality of documents. Reals are equal as numbers: the two zeros are equal, and a whole
number equals no real. -/
def equals : Document → Document → Bool
  | .null, .null => true
  | .bool a, .bool b => a == b
  | .integer a, .integer b => a == b
  | .real a, .real b => a == b
  | .text a, .text b => a == b
  | .list a, .list b => equalElements a b
  | .object a, .object b => equalMembers a b
  | _, _ => false

/-- Equality of lists of documents, element by element. -/
def equalElements : List Document → List Document → Bool
  | [], [] => true
  | a :: as, b :: bs => equals a b && equalElements as bs
  | _, _ => false

/-- Equality of lists of members, member by member. -/
def equalMembers : List (String × Document) → List (String × Document) → Bool
  | [], [] => true
  | (name, a) :: as, (other, b) :: bs => name == other && equals a b && equalMembers as bs
  | _, _ => false

end

/-! ### Shape -/

mutual

/-- Whole numbers fit a signed or an unsigned word of 64 bits, reals are finite, and the
names of every object ascend. -/
def WellFormed : Document → Prop
  | .integer value => -0x8000000000000000 ≤ value ∧ value < 0x10000000000000000
  | .real value => value.isFinite = true
  | .list elements => WellFormedElements elements
  | .object members => Entries.Ascending members ∧ WellFormedMembers members
  | _ => True

def WellFormedElements : List Document → Prop
  | [] => True
  | element :: rest => WellFormed element ∧ WellFormedElements rest

/-- The document of every member is well-formed. -/
def WellFormedMembers : List (String × Document) → Prop
  | [] => True
  | (_, value) :: rest => WellFormed value ∧ WellFormedMembers rest

end

mutual

/-- How many lists and objects stand around the innermost value. -/
def depth : Document → Nat
  | .list elements => 1 + depthElements elements
  | .object members => 1 + depthMembers members
  | _ => 0

def depthElements : List Document → Nat
  | [] => 0
  | element :: rest => max (depth element) (depthElements rest)

def depthMembers : List (String × Document) → Nat
  | [] => 0
  | (_, value) :: rest => max (depth value) (depthMembers rest)

end

/-! ### Compact text -/

/-- A hexadecimal digit, in lower case. -/
def hexDigit (n : Nat) : Char := Nat.digitChar (n % 16)

/-- A character as it stands inside quotes. -/
def escaped (c : Char) : List Char :=
  if c = '"' then ['\\', '"']
  else if c = '\\' then ['\\', '\\']
  else if c = '\n' then ['\\', 'n']
  else if c = '\r' then ['\\', 'r']
  else if c = '\t' then ['\\', 't']
  else if c.toNat = 0x08 then ['\\', 'b']
  else if c.toNat = 0x0C then ['\\', 'f']
  else if c.toNat < 0x20 then
    ['\\', 'u', '0', '0', hexDigit (c.toNat / 16), hexDigit c.toNat]
  else [c]

/-- A text in quotes. -/
def quoted (text : String) : List Char :=
  '"' :: (text.toList.flatMap escaped ++ ['"'])

def integerChars (n : Int) : List Char :=
  if n < 0 then '-' :: Nat.toDigits 10 n.natAbs else Nat.toDigits 10 n.natAbs

mutual

/-- The characters of a document in its compact form, without any white space. -/
def chars : Document → List Char
  | .null => ['n', 'u', 'l', 'l']
  | .bool true => ['t', 'r', 'u', 'e']
  | .bool false => ['f', 'a', 'l', 's', 'e']
  | .integer value => integerChars value
  | .real value => Real.chars value
  | .text value => quoted value
  | .list [] => ['[', ']']
  | .list (first :: rest) => '[' :: (chars first ++ elementChars rest)
  | .object [] => ['\x7b', '\x7d']
  | .object ((name, value) :: rest) =>
    '\x7b' :: (quoted name ++ ':' :: (chars value ++ memberChars rest))

/-- The elements behind the first one, each after a comma, and the closing bracket. -/
def elementChars : List Document → List Char
  | [] => [']']
  | element :: rest => ',' :: (chars element ++ elementChars rest)

/-- The members behind the first one, each after a comma, and the closing brace. -/
def memberChars : List (String × Document) → List Char
  | [] => ['\x7d']
  | (name, value) :: rest => ',' :: (quoted name ++ ':' :: (chars value ++ memberChars rest))

end

/-- The compact text of a document. It holds no white space outside of quotes and keeps the order of
the members, so documents that differ have different texts. -/
def render (d : Document) : String := String.ofList (chars d)

end Document

end CachedParameters
