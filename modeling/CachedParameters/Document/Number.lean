import CachedParameters.Document
import CachedParameters.Document.Cursor

/-!
# Numbers in the text of a document

`Numeric` keeps the digits of a number as they were written; `Numeric.value` says which number
they stand for. A numeral without point and exponent that fits a 64-bit word is a whole number,
and every other one, `-0` included, is real.

The real number is computed in binary64 arithmetic from a significand that fits a word and a
power of ten, so it is near the number written but not always the nearest one. As many digits as
fit go into the significand. Further digits before the point each multiply by ten, and further
digits behind it are left out.
-/

namespace CachedParameters.Document

/-- Whether a byte is an ASCII digit. -/
def isDigit (byte : UInt8) : Bool := 0x30 ≤ byte && byte ≤ 0x39

def digitOf (byte : UInt8) : Nat := byte.toNat - 0x30

/-- The digits of a numeral as they were written, before the point and behind it, and whether a
minus sign stands in front. -/
structure Numeric where
  negative : Bool
  whole : List UInt8
  fraction : List UInt8 := []
  deriving DecidableEq, Repr

/-! ### The significand -/

/-- Appends digits to a significand as long as it fits a word, and counts the others. -/
def absorbWhole (significand : Nat) : List UInt8 → Nat × Nat
  | [] => (significand, 0)
  | d :: rest =>
    if 10 * significand + digitOf d < 0x10000000000000000 then
      absorbWhole (10 * significand + digitOf d) rest
    else (significand, rest.length + 1)

/-- Appends digits to a significand as long as it fits a word, and counts those appended. -/
def absorbFraction (significand taken : Nat) : List UInt8 → Nat × Nat
  | [] => (significand, taken)
  | d :: rest =>
    if 10 * significand + digitOf d < 0x10000000000000000 then
      absorbFraction (10 * significand + digitOf d) (taken + 1) rest
    else (significand, taken)

/-- The significand of a numeral and the power of ten that belongs to it. -/
def Numeric.scaled (n : Numeric) : Nat × Int :=
  let (significand, leftOut) := absorbWhole 0 n.whole
  let (significand, taken) := absorbFraction significand 0 n.fraction
  (significand, (leftOut : Int) - taken)

/-! ### The value -/

/-- Multiplies by a power of ten. Powers beyond the largest one that is finite are divided out
in steps; a word is zero after two of them, so `fuel` need not be large. A product that is
infinite is refused. -/
def scale : (fuel : Nat) → Float → Int → Option Float
  | 0, f, _ => some f
  | fuel + 1, f, exponent =>
    if exponent.natAbs ≤ 308 then
      if 0 ≤ exponent then
        let product := f * Float.ofScientific 1 false exponent.natAbs
        if product.isInf then none else some product
      else some (f / Float.ofScientific 1 false exponent.natAbs)
    else if f == 0 then some f
    else if 0 ≤ exponent then none
    else scale fuel (f / Float.ofScientific 1 false 308) (exponent + 308)

def signed (negative : Bool) (f : Float) : Float := if negative then -f else f

/-- The real number that a numeral with an exponent stands for, unless it is too large. -/
def Numeric.real? (n : Numeric) (exponent : Int) : Option Float :=
  let (significand, power) := n.scaled
  (scale 8 (Float.ofNat significand) (power + exponent)).map (signed n.negative)

/-- The number that a numeral without point and exponent stands for. -/
def Numeric.wholeValue? (n : Numeric) : Option Document :=
  let (significand, leftOut) := absorbWhole 0 n.whole
  if leftOut = 0 then
    if !n.negative then some (.integer significand)
    else if significand = 0 ∨ 0x8000000000000000 < significand then
      some (.real (-(Float.ofNat significand)))
    else some (.integer (-significand))
  else (n.real? 0).map .real

/-! ### Reading -/

/-- The largest exponent that is read digit by digit. -/
def exponentLimit : Nat := 0x7FFFFFFF

/-- Appends digits to an exponent. At the digit that exceeds the limit the outcome is settled:
`none` if the number is then zero, and else the fault that it is too large. -/
def readExponent (vanishes : Bool) (exponent : Nat) :
    List UInt8 → Position → Except ReadError (Option Nat)
  | [], _ => .ok (some exponent)
  | d :: rest, place =>
    if 10 * exponent + digitOf d ≤ exponentLimit then
      readExponent vanishes (10 * exponent + digitOf d) rest (place.after d)
    else if vanishes then .ok none
    else .error ⟨.numberTooLarge, place.after d⟩

/-- Reads the exponent of a numeral, its letter being the next byte. -/
def readScientific (n : Numeric) (c : Cursor) : Except ReadError (Document × Cursor) :=
  let c := c.skip
  let negative := c.rest.head? == some 0x2D
  let c := if negative || c.rest.head? == some 0x2B then c.skip else c
  match c.rest with
  | [] => c.failHere .endInValue
  | first :: _ =>
    if isDigit first then
      let stop := c.skipWhile isDigit
      let vanishes := negative || n.scaled.1 == 0
      match readExponent vanishes 0 (c.rest.takeWhile isDigit) c.position with
      | .error e => .error e
      | .ok none => .ok (.real (signed n.negative 0), stop)
      | .ok (some exponent) =>
        match n.real? (if negative then -exponent else exponent) with
        | some value => .ok (.real value, stop)
        | none => stop.failHere .numberTooLarge
    else c.skip.failHere .invalidNumber

/-- Reads what follows the digits of a numeral, and gives its value. -/
def readMagnitude (n : Numeric) (hasPoint : Bool) (c : Cursor) :
    Except ReadError (Document × Cursor) :=
  if c.rest.head? == some 0x65 || c.rest.head? == some 0x45 then readScientific n c
  else
    match if hasPoint then (n.real? 0).map .real else n.wholeValue? with
    | some value => .ok (value, c)
    | none => c.failHere .numberTooLarge

/-- Reads what follows the digits before the point. -/
def readFraction (n : Numeric) (c : Cursor) : Except ReadError (Document × Cursor) :=
  if c.rest.head? == some 0x2E then
    let c := c.skip
    let digits := c.rest.takeWhile isDigit
    if digits.isEmpty then
      c.failNext (if c.rest.isEmpty then .endInValue else .invalidNumber)
    else readMagnitude { n with fraction := digits } true (c.skipWhile isDigit)
  else readMagnitude n false c

/-- Reads a number, its minus sign having been taken. The digit zero begins no longer numeral. -/
def readNumber (negative : Bool) (c : Cursor) : Except ReadError (Document × Cursor) :=
  match c.rest with
  | [] => c.failHere .endInValue
  | first :: rest =>
    if first = 0x30 then
      if rest.head?.any isDigit then c.skip.failNext .invalidNumber
      else readFraction ⟨negative, [first], []⟩ c.skip
    else if isDigit first then
      readFraction ⟨negative, c.rest.takeWhile isDigit, []⟩ (c.skipWhile isDigit)
    else c.skip.failHere .invalidNumber

end CachedParameters.Document
