/-!
# Text of real numbers

A binary64 number is a significand times a power of two, and every real number near enough
to it rounds to it. `Real.shortest` finds a decimal among those reals with as few digits as
possible: it tries the grids of multiples of a power of ten from coarse to fine and stops at
the first grid with a point in the interval. Only the two neighbours of the number on a grid
can be that point; of two hits the nearer one is taken, and in a tie the even one. All comparisons
are between natural numbers, so none of them rounds.

`Real.render` writes these digits with a decimal point and at least one digit behind it while the
exponent is moderate, else with an exponent whose sign is always written. Either way the text holds
a `.` or an `e`, which no whole number has. So `1` and `1.0`, which are different documents, have
different texts, and so have the fingerprints of options that hold them.
-/

namespace CachedParameters.Real

/-- A positive number `significand * 2 ^ exponent`, as a binary64 word holds it. The significand
includes the hidden bit. If it is the least one of its exponent, the next smaller number lies only
half as far away as the next larger one, and `narrowBelow` says so. -/
structure Binary where
  significand : Nat
  exponent : Int
  narrowBelow : Bool
  deriving DecidableEq, Repr

/-- A number `digits * 10 ^ exponent`, its digits read as one whole number. -/
structure Decimal where
  digits : Nat
  exponent : Int
  deriving DecidableEq, Repr

/-- Whether the sign bit of a number is set. -/
def isNegative (x : Float) : Bool := x.toBits.toNat / 0x8000000000000000 == 1

/-- Whether a number is zero of either sign: no bit but the sign is set. -/
def isZero (x : Float) : Bool := x.toBits.toNat % 0x8000000000000000 == 0

/-- The magnitude of a number other than zero, infinity and NaN. -/
def magnitude (x : Float) : Binary :=
  let fraction : Nat := x.toBits.toNat % 0x10000000000000
  let biased : Nat := x.toBits.toNat / 0x10000000000000 % 0x800
  if biased = 0 then ⟨fraction, -1074, false⟩
  else ⟨0x10000000000000 + fraction, (biased : Int) - 1075, fraction == 0 && 1 < biased⟩

/-- The reals that round to a number, and the step of a decimal grid, all in one unit that makes
them whole. The interval goes from `low` to `high` around `value`, and its ends belong to it if it
is `closed`. -/
structure Window where
  value : Nat
  low : Nat
  high : Nat
  closed : Bool
  step : Nat
  deriving DecidableEq, Repr

/-- The window of a number on the grid of multiples of `10 ^ grid`. The ends of its interval
lie halfway to its neighbours, hence on quarters of its last bit; a half goes to the even
significand. -/
def Binary.window (x : Binary) (grid : Int) : Window :=
  let scale := Nat.pow 2 (x.exponent - 2).toNat * Nat.pow 10 (-grid).toNat
  { value := 4 * x.significand * scale
    low := (4 * x.significand - if x.narrowBelow then 1 else 2) * scale
    high := (4 * x.significand + 2) * scale
    closed := x.significand % 2 == 0
    step := Nat.pow 2 (2 - x.exponent).toNat * Nat.pow 10 grid.toNat }

/-- Whether a point rounds to the number. -/
def Window.covers (w : Window) (point : Nat) : Bool :=
  if w.closed then w.low ≤ point && point ≤ w.high else w.low < point && point < w.high

/-- The multiple of the step to write for the number, if a neighbour on the grid is covered. -/
def Window.pick (w : Window) : Option Nat :=
  let count := w.value / w.step
  let below := count * w.step
  let above := below + w.step
  match w.covers below, w.covers above with
  | false, false => none
  | true, false => some count
  | false, true => some (count + 1)
  | true, true =>
    if w.value - below < above - w.value then some count
    else if above - w.value < w.value - below then some (count + 1)
    else some (if count % 2 = 0 then count else count + 1)

/-- The first hit on the grids from `10 ^ grid` downwards; `fuel` bounds their number. -/
def Binary.firstHit (x : Binary) : (fuel : Nat) → (grid : Int) → Decimal
  | 0, grid => ⟨(x.window grid).value / (x.window grid).step, grid⟩
  | fuel + 1, grid =>
    match (x.window grid).pick with
    | some digits => ⟨digits, grid⟩
    | none => x.firstHit fuel (grid - 1)

/-- An exponent of ten at which the power exceeds the number: `0.30103` is the logarithm of
two to five places, and two is added for the rounding. -/
def Binary.coarseGrid (x : Binary) : Int :=
  ((x.significand.log2 + 1 + x.exponent) * 30103).fdiv 100000 + 2

/-- The shortest decimal that rounds to a number. Seventeen digits tell any two binary64
numbers apart, so a few grids below the coarse one are enough. -/
def Binary.shortest (x : Binary) : Decimal := x.firstHit 32 x.coarseGrid

/-- Which decimal exponents are written without an exponent: from `least` up to but not including
`bound`. -/
structure Layout where
  least : Int
  bound : Int

/-- Documents write `0.00001` and `1000000000000000.0` out, but `1e-6` and `1e+16` short. -/
def documentLayout : Layout := ⟨-5, 16⟩

/-- The sign and digits of an exponent. -/
def exponentText (exponent : Int) : List Char :=
  (if exponent < 0 then '-' else '+') :: Nat.toDigits 10 exponent.natAbs

/-- The characters of a decimal in the given layout: digits with a point among, before or behind
them, or one digit and a power of ten. -/
def Decimal.chars (layout : Layout) (d : Decimal) : List Char :=
  let digits := Nat.toDigits 10 d.digits
  let leading := d.exponent + digits.length - 1
  if layout.least ≤ leading ∧ leading < layout.bound then
    if 0 ≤ d.exponent then
      digits ++ List.replicate d.exponent.toNat '0' ++ ['.', '0']
    else if 0 ≤ leading then
      digits.take (leading.toNat + 1) ++ '.' :: digits.drop (leading.toNat + 1)
    else
      '0' :: '.' :: (List.replicate (-leading - 1).toNat '0' ++ digits)
  else
    match digits with
    | [] => []
    | [digit] => digit :: 'e' :: exponentText leading
    | digit :: rest => digit :: '.' :: (rest ++ 'e' :: exponentText leading)

/-- The characters of a finite number: those of the shortest decimal that is read back as it. -/
def chars (x : Float) : List Char :=
  let sign := if isNegative x then ['-'] else []
  if isZero x then sign ++ ['0', '.', '0']
  else sign ++ (magnitude x).shortest.chars documentLayout

def render (x : Float) : String := String.ofList (chars x)

end CachedParameters.Real
