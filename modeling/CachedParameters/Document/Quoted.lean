import CachedParameters.Document.Cursor
import CachedParameters.Text.Bytes

/-!
# Quoted texts in the text of a document

`readText` reads what stands between two quotes. Escapes are resolved to bytes first and all
bytes are decoded together at the end, so a fault in the encoding is found only when the closing
quote has been taken; it is then placed as many columns before it as bytes were left undecoded.
-/

namespace CachedParameters.Document

/-- The value of a hexadecimal digit of either case. -/
def hexValue? (byte : UInt8) : Option Nat :=
  if 0x30 ≤ byte && byte ≤ 0x39 then some (byte.toNat - 0x30)
  else if 0x41 ≤ byte && byte ≤ 0x46 then some (byte.toNat - 0x41 + 10)
  else if 0x61 ≤ byte && byte ≤ 0x66 then some (byte.toNat - 0x61 + 10)
  else none

/-- The number that four hexadecimal digits stand for. -/
def hexQuad? (a b c d : UInt8) : Option Nat :=
  match hexValue? a, hexValue? b, hexValue? c, hexValue? d with
  | some a, some b, some c, some d => some (((a * 16 + b) * 16 + c) * 16 + d)
  | _, _, _, _ => none

/-- Whether a code unit is the first half of a surrogate pair. -/
def isLeading (unit : Nat) : Bool := 0xD800 ≤ unit && unit ≤ 0xDBFF

/-- Whether a code unit is the second half of a surrogate pair. -/
def isTrailing (unit : Nat) : Bool := 0xDC00 ≤ unit && unit ≤ 0xDFFF

/-- The code point of a surrogate pair. -/
def paired (leading trailing : Nat) : Nat :=
  0x10000 + (leading - 0xD800) * 0x400 + (trailing - 0xDC00)

/-- The byte that a backslash and a letter stand for. -/
def simpleEscape? (letter : UInt8) : Option UInt8 :=
  if letter = 0x22 then some 0x22
  else if letter = 0x5C then some 0x5C
  else if letter = 0x2F then some 0x2F
  else if letter = 0x62 then some 0x08
  else if letter = 0x66 then some 0x0C
  else if letter = 0x6E then some 0x0A
  else if letter = 0x72 then some 0x0D
  else if letter = 0x74 then some 0x09
  else none

/-- Puts the bytes of a code point in front of bytes that are kept in reverse. -/
def pushCodePoint (point : Nat) (reversed : List UInt8) : List UInt8 :=
  (String.utf8EncodeChar (Char.ofNat point)).reverse ++ reversed

/-- Decodes the bytes of a text, the closing quote lying right behind the position. -/
def finishText (bytes rest : List UInt8) (place : Position) :
    Except ReadError (String × Cursor) :=
  match Text.decode? bytes with
  | some decoded => .ok (decoded, ⟨rest, place⟩)
  | none =>
    .error ⟨.invalidUtf8, ⟨place.line, place.column - (bytes.length - Text.validLength bytes)⟩⟩

/-- Reads up to the closing quote; `reversed` holds the bytes resolved so far, last one first. -/
def readText (reversed : List UInt8) :
    List UInt8 → Position → Except ReadError (String × Cursor)
  | [], place => .error ⟨.endInText, place⟩
  | 0x22 :: rest, place => finishText reversed.reverse rest (place.after 0x22)
  | [0x5C], place => .error ⟨.endInText, place.after 0x5C⟩
  | 0x5C :: 0x75 :: a :: b :: c :: d :: rest, place =>
    let behind := place.afterAll [0x5C, 0x75, a, b, c, d]
    match hexQuad? a b c d with
    | none => .error ⟨.invalidEscape, behind⟩
    | some unit =>
      if isTrailing unit then .error ⟨.loneSurrogate, behind⟩
      else if !isLeading unit then readText (pushCodePoint unit reversed) rest behind
      else
        match rest with
        | [] => .error ⟨.endInText, behind⟩
        | 0x5C :: [] => .error ⟨.endInText, behind.after 0x5C⟩
        | 0x5C :: 0x75 :: e :: f :: g :: h :: rest =>
          let behind := behind.afterAll [0x5C, 0x75, e, f, g, h]
          match hexQuad? e f g h with
          | none => .error ⟨.invalidEscape, behind⟩
          | some second =>
            if isTrailing second then
              readText (pushCodePoint (paired unit second) reversed) rest behind
            else .error ⟨.loneSurrogate, behind⟩
        | 0x5C :: 0x75 :: short => .error ⟨.endInText, behind.afterAll (0x5C :: 0x75 :: short)⟩
        | 0x5C :: other :: _ => .error ⟨.expectedSurrogate, behind.afterAll [0x5C, other]⟩
        | other :: _ => .error ⟨.expectedSurrogate, behind.after other⟩
  | 0x5C :: 0x75 :: short, place => .error ⟨.endInText, place.afterAll (0x5C :: 0x75 :: short)⟩
  | 0x5C :: letter :: rest, place =>
    match simpleEscape? letter with
    | some byte => readText (byte :: reversed) rest (place.afterAll [0x5C, letter])
    | none => .error ⟨.invalidEscape, place.afterAll [0x5C, letter]⟩
  | byte :: rest, place =>
    if byte < 0x20 then .error ⟨.controlCharacter, place.after byte⟩
    else readText (byte :: reversed) rest (place.after byte)

end CachedParameters.Document
