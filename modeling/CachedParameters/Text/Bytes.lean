/-!
# Texts as bytes, and bytes as texts

`Text.encode` gives the UTF-8 bytes of a text and `Text.decode?` the text of such bytes. Bytes
that encode no text have no decoding, and `Text.validLength` says how far they are sound, which is
what a message about them reports.

Bytes that are no text are shown with two lower-case hexadecimal digits each, as the attributes of a
table are. `Hex.decode?` reads such digits, in either case of the letters.

## Main results

- `Text.decode?_eq_some_iff`: decoding accepts exactly what encoding produces.
-/

namespace CachedParameters.Text

/-- The UTF-8 bytes of a text. -/
def encode (text : String) : List UInt8 := text.toByteArray.data.toList

/-- The text with these UTF-8 bytes, if there is one. -/
def decode? (bytes : List UInt8) : Option String := String.fromUTF8? ⟨bytes.toArray⟩

/-- Reads whole characters of `bytes` from the offset `start` on and returns the offset where
they end; `fuel` bounds the number of characters. -/
def wholeCharactersEnd (bytes : ByteArray) : (fuel start : Nat) → Nat
  | 0, start => start
  | fuel + 1, start =>
    match bytes.utf8DecodeChar? start with
    | some c => wholeCharactersEnd bytes fuel (start + c.utf8Size)
    | none => start

/-- The length of the longest start of `bytes` that is made of whole characters. Every
character takes at least one byte, so there are no more of them than bytes. -/
def validLength (bytes : List UInt8) : Nat :=
  wholeCharactersEnd ⟨bytes.toArray⟩ bytes.length 0

/-- Bytes that decode are those of the text they decode to. -/
theorem eq_encode_of_decode? {bytes : List UInt8} {text : String}
    (h : decode? bytes = some text) : bytes = encode text := by
  rw [decode?, String.fromUTF8?] at h
  split at h
  · obtain rfl := Option.some.inj h
    simp [encode, String.fromUTF8]
  · simp at h

theorem decode?_encode (text : String) : decode? (encode text) = some text := by
  have h : (⟨(encode text).toArray⟩ : ByteArray) = text.toByteArray := by
    simp [encode]
  rw [decode?, h, String.fromUTF8?, dif_pos text.isValidUTF8]
  rfl

/-- Decoding accepts exactly what encoding produces, so later modules can speak of texts and leave
bytes alone. -/
theorem decode?_eq_some_iff {bytes : List UInt8} {text : String} :
    decode? bytes = some text ↔ bytes = encode text :=
  ⟨eq_encode_of_decode?, fun h => h ▸ decode?_encode text⟩

/-- Texts with the same bytes are the same text. -/
theorem encode_inj {a b : String} (h : encode a = encode b) : a = b :=
  Option.some.inj ((decode?_encode a).symm.trans (h ▸ decode?_encode b))

end CachedParameters.Text

namespace CachedParameters.Hex

/-- The digit of a value below sixteen. -/
def digit (value : UInt8) : Char := Nat.digitChar value.toNat

def value? (c : Char) : Option UInt8 :=
  if '0' ≤ c ∧ c ≤ '9' then some (c.toNat - '0'.toNat).toUInt8
  else if 'a' ≤ c ∧ c ≤ 'f' then some (c.toNat - 'a'.toNat + 10).toUInt8
  else if 'A' ≤ c ∧ c ≤ 'F' then some (c.toNat - 'A'.toNat + 10).toUInt8
  else none

def digits (bytes : List UInt8) : List Char :=
  bytes.flatMap fun byte => [digit (byte / 16), digit (byte % 16)]

/-- The bytes of digits, two for each byte. -/
def bytes? : List Char → Option (List UInt8)
  | [] => some []
  | [_] => none
  | high :: low :: rest =>
    match value? high, value? low, bytes? rest with
    | some high, some low, some bytes => some ((16 * high + low) :: bytes)
    | _, _, _ => none

/-- Bytes as hexadecimal text. -/
def encode (bytes : List UInt8) : String := String.ofList (digits bytes)

/-- The bytes of a hexadecimal text. -/
def decode? (text : String) : Option (List UInt8) := bytes? text.toList

end CachedParameters.Hex
