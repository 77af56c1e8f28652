import CachedParameters.Document.Number
import CachedParameters.Document.Quoted

/-!
# Reading documents

`Document.read` reads a document from bytes, as the `json` transform does. Lists and objects may
nest `Document.maxDepth` deep. Of several members with one name the last one stays.

The readers recurse on a supply of fuel that grows with the text: every element and every member
takes at least one byte, so the supply is never used up before the text is.
-/

namespace CachedParameters.Document

/-- How deep lists and objects may nest. -/
def maxDepth : Nat := 127

/-- Reads the letters of `null`, `true` or `false` behind the first one, which has told them
apart. -/
def readWord (letters : List UInt8) (value : Document) (c : Cursor) :
    Except ReadError (Document × Cursor) :=
  match letters with
  | [] => .ok (value, c)
  | letter :: letters =>
    match c.rest with
    | [] => c.failHere .endInValue
    | byte :: _ =>
      if byte = letter then readWord letters value c.skip else c.skip.failHere .expectedWord

def readColon (c : Cursor) : Except ReadError Cursor :=
  let c := c.skipSpace
  match c.rest with
  | [] => c.failNext .endInObject
  | 0x3A :: _ => .ok c.skip
  | _ :: _ => c.failNext .expectedColon

mutual

/-- Reads a value that may hold `depth` more levels of lists and objects. -/
def readValue : (fuel depth : Nat) → Cursor → Except ReadError (Document × Cursor)
  | 0, _, c => c.failNext .endInValue
  | fuel + 1, depth, c =>
    let c := c.skipSpace
    match c.rest with
    | [] => c.failNext .endInValue
    | 0x6E :: _ => readWord [0x75, 0x6C, 0x6C] .null c.skip
    | 0x74 :: _ => readWord [0x72, 0x75, 0x65] (.bool true) c.skip
    | 0x66 :: _ => readWord [0x61, 0x6C, 0x73, 0x65] (.bool false) c.skip
    | 0x2D :: _ => readNumber true c.skip
    | 0x22 :: rest =>
      match readText [] rest (c.position.after 0x22) with
      | .ok (content, c) => .ok (.text content, c)
      | .error e => .error e
    | 0x5B :: _ =>
      match depth with
      | 0 => c.failNext .tooDeep
      | depth + 1 =>
        let c := c.skip.skipSpace
        match c.rest with
        | [] => c.failNext .endInList
        | 0x5D :: _ => .ok (.list [], c.skip)
        | _ :: _ => readElements fuel depth [] c
    | 0x7B :: _ =>
      match depth with
      | 0 => c.failNext .tooDeep
      | depth + 1 =>
        let c := c.skip.skipSpace
        match c.rest with
        | [] => c.failNext .endInObject
        | 0x7D :: _ => .ok (.object [], c.skip)
        | 0x22 :: _ => readMembers fuel depth [] c
        | _ :: _ => c.failNext .nameNotText
    | byte :: _ =>
      if isDigit byte then readNumber false c else c.failNext .expectedValue

/-- Reads an element and all that follow it; `reversed` holds the elements before it, last one
first. -/
def readElements : (fuel depth : Nat) → List Document → Cursor →
    Except ReadError (Document × Cursor)
  | 0, _, _, c => c.failNext .endInList
  | fuel + 1, depth, reversed, c =>
    match readValue fuel depth c with
    | .error e => .error e
    | .ok (element, c) =>
      let c := c.skipSpace
      match c.rest with
      | [] => c.failNext .endInList
      | 0x5D :: _ => .ok (.list (element :: reversed).reverse, c.skip)
      | 0x2C :: _ =>
        let c := c.skip.skipSpace
        match c.rest with
        | [] => c.failNext .endInValue
        | 0x5D :: _ => c.failNext .trailingComma
        | _ :: _ => readElements fuel depth (element :: reversed) c
      | _ :: _ => c.failNext .expectedListEnd

/-- Reads a member, its quote being the next byte, and all that follow it; `members` holds the
members before it. -/
def readMembers : (fuel depth : Nat) → List (String × Document) → Cursor →
    Except ReadError (Document × Cursor)
  | 0, _, _, c => c.failNext .endInObject
  | fuel + 1, depth, members, c =>
    match readText [] c.skip.rest c.skip.position with
    | .error e => .error e
    | .ok (name, c) =>
      match readColon c with
      | .error e => .error e
      | .ok c =>
        match readValue fuel depth c with
        | .error e => .error e
        | .ok (value, c) =>
          let members := Entries.insert name value members
          let c := c.skipSpace
          match c.rest with
          | [] => c.failNext .endInObject
          | 0x7D :: _ => .ok (.object members, c.skip)
          | 0x2C :: _ =>
            let c := c.skip.skipSpace
            match c.rest with
            | [] => c.failNext .endInValue
            | 0x7D :: _ => c.failNext .trailingComma
            | 0x22 :: _ => readMembers fuel depth members c
            | _ :: _ => c.failNext .nameNotText
          | _ :: _ => c.failNext .expectedObjectEnd

end

/-- Reads a document; nothing but white space may stand around it. -/
def read (bytes : List UInt8) : Except ReadError Document :=
  match readValue (2 * bytes.length + 2) maxDepth (.start bytes) with
  | .error e => .error e
  | .ok (value, c) =>
    let c := c.skipSpace
    if c.rest.isEmpty then .ok value else c.failNext .trailingCharacters

end CachedParameters.Document
