/-!
# Base64

The standard alphabet with canonical padding, as the `binary` transform and the results of batches
use it. `Base64.encode` writes bytes and `Base64.decode` reads them back; it refuses every text that
is not the encoding of some bytes, and says why.

Four symbols carry three bytes. All but the last one to four characters of a text are plain
groups of four; only the last group may be padded. Of several faults the first one found in this
order is reported: a bad length, a bad character in a plain group, a bad character or a
misplaced padding in the last group, too few symbols there, padding that does not fill it, and
bits that no byte uses.
-/

namespace CachedParameters.Base64

/-- Why a text is not the encoding of any bytes. Offsets count characters from the start of the
text. A last symbol is invalid if it has bits that no byte uses, since then two texts would stand
for the same bytes. -/
inductive Fault where
  | invalidSymbol (byte : UInt8) (offset : Nat)
  | invalidLength (length : Nat)
  | invalidPadding
  | invalidLastSymbol (byte : UInt8) (offset : Nat)
  deriving DecidableEq, Repr

/-- The wording of a fault. It stands in the message of a failure to decode, so it is part of what a
caller sees. -/
def Fault.message : Fault → String
  | .invalidSymbol byte offset =>
    "Invalid symbol " ++ toString byte.toNat ++ ", offset " ++ toString offset ++ "."
  | .invalidLength length => "Invalid input length: " ++ toString length
  | .invalidPadding => "Invalid padding"
  | .invalidLastSymbol byte offset =>
    "Invalid last symbol " ++ toString byte.toNat ++ ", offset " ++ toString offset ++ "."

/-! ### The alphabet -/

/-- The character that fills up the last group. -/
def padding : UInt8 := 0x3D

/-- The symbol of a value below 64. -/
def symbol (value : Nat) : UInt8 :=
  if value < 26 then UInt8.ofNat (0x41 + value)
  else if value < 52 then UInt8.ofNat (0x61 + (value - 26))
  else if value < 62 then UInt8.ofNat (0x30 + (value - 52))
  else if value = 62 then 0x2B
  else 0x2F

/-- The value of a symbol of the standard alphabet, which has '+' and '/' behind the letters and the
digits. -/
def value? (byte : UInt8) : Option Nat :=
  if 0x41 ≤ byte && byte ≤ 0x5A then some (byte.toNat - 0x41)
  else if 0x61 ≤ byte && byte ≤ 0x7A then some (byte.toNat - 0x61 + 26)
  else if 0x30 ≤ byte && byte ≤ 0x39 then some (byte.toNat - 0x30 + 52)
  else if byte = 0x2B then some 62
  else if byte = 0x2F then some 63
  else none

/-! ### Encoding -/

/-- The encoding of bytes, three at a time into four symbols, padded to a whole group at the end. -/
def encode : List UInt8 → List UInt8
  | [] => []
  | [a] =>
    let n := a.toNat * 16
    [symbol (n / 64), symbol (n % 64), padding, padding]
  | [a, b] =>
    let n := (a.toNat * 256 + b.toNat) * 4
    [symbol (n / 4096), symbol (n / 64 % 64), symbol (n % 64), padding]
  | a :: b :: c :: rest =>
    let n := (a.toNat * 256 + b.toNat) * 256 + c.toNat
    symbol (n / 262144) :: symbol (n / 4096 % 64) :: symbol (n / 64 % 64) :: symbol (n % 64)
      :: encode rest

/-- The encoding of bytes as a text. -/
def render (bytes : List UInt8) : String :=
  String.ofList ((encode bytes).map fun byte => Char.ofNat byte.toNat)

/-! ### Decoding -/

/-- The bytes of a group of four values. -/
def groupBytes (a b c d : Nat) : List UInt8 :=
  let n := ((a * 64 + b) * 64 + c) * 64 + d
  [UInt8.ofNat (n / 65536), UInt8.ofNat (n / 256 % 256), UInt8.ofNat (n % 256)]

/-- The value of the symbol at an offset. -/
def symbolAt (byte : UInt8) (offset : Nat) : Except Fault Nat :=
  match value? byte with
  | some value => .ok value
  | none => .error (.invalidSymbol byte offset)

/-- What the last group of a text holds: the values of its symbols, and the number of paddings
behind them. -/
structure Ending where
  values : List Nat
  paddings : Nat
  deriving DecidableEq, Repr

/-- Reads the last group from left to right. A padding may not be one of the first two
characters, and nothing but paddings may follow it; otherwise the first padding is at fault. -/
def readEnding (start : Nat) (values : List Nat) (firstPadding : Option Nat) (paddings : Nat)
    (place : Nat) : List UInt8 → Except Fault Ending
  | [] => .ok ⟨values, paddings⟩
  | byte :: rest =>
    if byte = padding then
      if place < 2 then .error (.invalidSymbol padding (start + place))
      else
        readEnding start values (firstPadding.or (some place)) (paddings + 1) (place + 1) rest
    else
      match firstPadding with
      | some first => .error (.invalidSymbol padding (start + first))
      | none =>
        match symbolAt byte (start + place) with
        | .error fault => .error fault
        | .ok value => readEnding start (values ++ [value]) none 0 (place + 1) rest

/-- Decodes the last group, which begins at the offset `start`. -/
def decodeEnding (start : Nat) (group : List UInt8) : Except Fault (List UInt8) :=
  match readEnding start [] none 0 0 group with
  | .error fault => .error fault
  | .ok ending =>
    let count := ending.values.length
    let lastOffset := start + count - 1
    let lastByte := group.getD (count - 1) 0
    if group ≠ [] ∧ count < 2 then .error (.invalidLength (start + count))
    else if (count + ending.paddings) % 4 ≠ 0 then .error .invalidPadding
    else
      match ending.values with
      | [a, b] =>
        if b % 16 = 0 then .ok ((groupBytes a b 0 0).take 1)
        else .error (.invalidLastSymbol lastByte lastOffset)
      | [a, b, c] =>
        if c % 4 = 0 then .ok ((groupBytes a b c 0).take 2)
        else .error (.invalidLastSymbol lastByte lastOffset)
      | [a, b, c, d] => .ok (groupBytes a b c d)
      | _ => .ok []

/-- Decodes a text from the offset `start` on: plain groups of four as long as more follows, and
then the last group. -/
def decodeFrom (start : Nat) : List UInt8 → Except Fault (List UInt8)
  | a :: b :: c :: d :: e :: rest =>
    match symbolAt a start, symbolAt b (start + 1), symbolAt c (start + 2),
      symbolAt d (start + 3) with
    | .ok a, .ok b, .ok c, .ok d =>
      match decodeFrom (start + 4) (e :: rest) with
      | .ok bytes => .ok (groupBytes a b c d ++ bytes)
      | .error fault => .error fault
    | .error fault, _, _, _ => .error fault
    | _, .error fault, _, _ => .error fault
    | _, _, .error fault, _ => .error fault
    | _, _, _, .error fault => .error fault
  | group => decodeEnding start group

/-- Decodes a text. One character more than a multiple of four never decodes; if that character
is no symbol it is the fault, whatever stands before it. -/
def decode (text : List UInt8) : Except Fault (List UInt8) :=
  match text.getLast? with
  | some last =>
    if text.length % 4 = 1 ∧ last ≠ padding ∧ value? last = none then
      .error (.invalidSymbol last (text.length - 1))
    else decodeFrom 0 text
  | none => .ok []

end CachedParameters.Base64
