import Jukebox.Number.Decimal

/-!
# Binary formats and their shortest decimals

A binary format counts steps of a negative power of two and keeps a fixed number of
significant bits.  A fraction is rounded to the nearest number of the format, a half to
the even neighbour.  The shortest decimal of such a number is the one with the fewest
digits that is rounded back to it, and of two such the nearer one.
-/

namespace Jukebox

/-- A binary format: the bits of a significand, the steps in one, and the first magnitude
(in bits of steps) that is out of range. -/
structure BinaryFormat where
  precision : Nat
  unit : Nat
  limit : Nat

namespace BinaryFormat

/-- Single precision: 24 bits, steps of `2 ^ -149`, finite below `2 ^ 128`. -/
def single : BinaryFormat := ⟨24, 149, 277⟩

/-- Double precision: 53 bits, steps of `2 ^ -1074`, finite below `2 ^ 1024`. -/
def double : BinaryFormat := ⟨53, 1074, 2098⟩

/-- The bits of a natural number. -/
def bitLength (n : Nat) : Nat :=
  if n = 0 then 0 else n.log2 + 1

/-- The quotient rounded to the nearest natural number, a half to the even one. -/
def divideToEven (num den : Nat) : Nat :=
  let q := num / den
  let r := num % den
  if 2 * r < den then q
  else if den < 2 * r then q + 1
  else if q % 2 = 0 then q else q + 1

/-- The steps of the format nearest to `num / den`; `none` where that is out of range. -/
def nearest (format : BinaryFormat) (num den : Nat) : Option Nat :=
  let scaled := num * Nat.pow 2 format.unit
  let drop := bitLength (scaled / den) - format.precision
  let steps := divideToEven scaled (den * Nat.pow 2 drop) * Nat.pow 2 drop
  if bitLength steps ≤ format.limit then some steps else none

/-- The steps nearest to a decimal; `none` beyond the range.  Powers of ten that leave the
range in any case are not worked out. -/
def ofDecimal (format : BinaryFormat) (d : Decimal) : Option Nat :=
  let magnitude := d.exponent + d.width
  if d.digits = 0 || magnitude < -400 then some 0
  else if 400 < magnitude then none
  else format.nearest d.fraction.1 d.fraction.2

/-! ## The shortest text that reads back -/

/-- The decimals `digits · 10 ^ exponent` that read back as a given number: those between
`low` and `high`, in quarters of a step, ends included where the significand is even. -/
structure Interval where
  low : Nat
  high : Nat
  closed : Bool

/-- The interval of the decimals that round to `steps`. -/
def interval (format : BinaryFormat) (steps : Nat) : Interval :=
  let drop := bitLength steps - format.precision
  let gap := Nat.pow 2 drop
  let atPower := 0 < drop && steps == Nat.pow 2 (format.precision - 1 + drop)
  let below := if atPower then gap / 2 else gap
  { low := 4 * steps - 2 * below
    high := 4 * steps + 2 * gap
    closed := steps / gap % 2 == 0 }

/-- Whether `digits · 10 ^ exponent` lies in the interval. -/
def Interval.holds (format : BinaryFormat) (i : Interval) (digits : Nat) (exponent : Int) :
    Bool :=
  let scale := Nat.pow 10 exponent.natAbs
  let quarters := Nat.pow 2 (format.unit + 2)
  let (value, factor) :=
    if exponent < 0 then (digits * quarters, scale) else (digits * scale * quarters, 1)
  if i.closed then i.low * factor ≤ value && value ≤ i.high * factor
  else i.low * factor < value && value < i.high * factor

/-- The number of digits before the point of `steps`, at most zero below one: the least
`e` with a value below `10 ^ e`. -/
def decimalMagnitude (format : BinaryFormat) (steps : Nat) : Int :=
  let one := Nat.pow 2 format.unit
  let whole := steps / one
  if 0 < whole then (Nat.toDigits 10 whole).length
  else
    -- leading zeros behind the point: how often ten times the value stays below one
    let zeros := (List.range format.unit).takeWhile fun k => steps * Nat.pow 10 (k + 1) < one
    Int.negOfNat zeros.length

/-- The two neighbours of `steps` on the grid of `10 ^ exponent`: the lower one, and
whether the upper one is nearer. -/
def neighbours (format : BinaryFormat) (steps : Nat) (exponent : Int) : Nat × Bool :=
  let scale := Nat.pow 10 exponent.natAbs
  let one := Nat.pow 2 format.unit
  let (num, den) := if exponent < 0 then (steps * scale, one) else (steps, one * scale)
  (num / den, den ≤ 2 * (num % den))

/-- The shortest digits for `steps`, trying `count`, `count + 1`, … digits. -/
def shortestFrom (format : BinaryFormat) (steps : Nat) (count : Nat) : Nat → Nat × Int
  | 0 => (0, 0)
  | tries + 1 =>
    let exponent := format.decimalMagnitude steps - count
    let (lower, upperNearer) := format.neighbours steps exponent
    let holdsLower := Interval.holds format (format.interval steps) lower exponent
    let holdsUpper := Interval.holds format (format.interval steps) (lower + 1) exponent
    if holdsLower && holdsUpper then (if upperNearer then lower + 1 else lower, exponent)
    else if holdsLower then (lower, exponent)
    else if holdsUpper then (lower + 1, exponent)
    else shortestFrom format steps (count + 1) tries

/-- The fewest digits that read back as `steps`, with their power of ten. -/
def shortest (format : BinaryFormat) (steps : Nat) : Nat × Int :=
  shortestFrom format steps 1 17

/-- Digits and a power of ten in positional notation; no point where no digit follows. -/
def positional (digits : Nat) (exponent : Int) : List Char :=
  let ds := Nat.toDigits 10 digits
  if 0 ≤ exponent then ds ++ List.replicate exponent.natAbs '0'
  else
    let places := exponent.natAbs
    let padded := List.replicate (places + 1 - ds.length) '0' ++ ds
    let whole := padded.take (padded.length - places)
    let fraction := padded.drop (padded.length - places)
    let kept := (fraction.reverse.dropWhile (· == '0')).reverse
    if kept.isEmpty then whole else whole ++ '.' :: kept

/-- A number of steps in positional notation with the fewest digits. -/
def magnitudeText (format : BinaryFormat) (steps : Nat) : List Char :=
  if steps = 0 then ['0']
  else
    let (digits, exponent) := format.shortest steps
    positional digits exponent

end BinaryFormat

end Jukebox
