import Jukebox.Number.Shortest

/-!
# Numbers of single precision

A number of single precision is an exact multiple of `2 ^ -149` with a sign, an infinity,
or not a number.  Comparison is exact.  A decimal is rounded to the nearest such number,
first at double precision and then at single precision, a half to the even neighbour each
time.  A number is written with the fewest digits that read back, never with an exponent.
-/

namespace Jukebox

/-- A number of single precision; a finite one counts steps of `2 ^ -149`. -/
inductive Single where
  | nan
  | infinite (negative : Bool)
  | finite (negative : Bool) (steps : Nat)
deriving DecidableEq, Repr, Inhabited

namespace Single

/-- Zero without a sign. -/
def zero : Single := .finite false 0

/-- A natural number of wholes, for the few that settings name. -/
def ofNat (n : Nat) : Single := .finite false (n * Nat.pow 2 149)

/-- One half. -/
def half : Single := .finite false (Nat.pow 2 148)

/-- Neither infinite nor missing. -/
def isFinite : Single → Bool
  | .finite _ _ => true
  | _ => false

/-- The place on the number line, in steps; the two zeros share one. -/
def position : Bool → Nat → Int
  | true, steps => -(steps : Int)
  | false, steps => steps

/-- Less than; never holds where one side is not a number. -/
def lt : Single → Single → Bool
  | .nan, _ => false
  | _, .nan => false
  | .infinite a, .infinite b => a && !b
  | .infinite a, .finite _ _ => a
  | .finite _ _, .infinite b => !b
  | .finite a m, .finite b n => position a m < position b n

/-- Less than or equal; never holds where one side is not a number. -/
def le : Single → Single → Bool
  | .nan, _ => false
  | _, .nan => false
  | .infinite a, .infinite b => a || !b
  | .infinite a, .finite _ _ => a
  | .finite _ _, .infinite b => !b
  | .finite a m, .finite b n => position a m ≤ position b n

/-- The larger of two numbers; where one is not a number, the other. -/
def max (a b : Single) : Single :=
  if a == .nan then b
  else if b == .nan then a
  else if lt a b then b else a

/-- The smaller of two numbers; where one is not a number, the other. -/
def min (a b : Single) : Single :=
  if a == .nan then b
  else if b == .nan then a
  else if lt b a then b else a

/-- `x` moved into the range from `low` to `high`. -/
def clamp (x low high : Single) : Single :=
  if lt x low then low else if lt high x then high else x

/-- The number of single precision nearest to a decimal. -/
def ofDecimal (d : Decimal) : Single :=
  match BinaryFormat.double.ofDecimal d with
  | none => .infinite d.negative
  | some steps =>
    match BinaryFormat.single.nearest steps (Nat.pow 2 BinaryFormat.double.unit) with
    | some steps => .finite d.negative steps
    | none => .infinite d.negative

/-- The number of single precision nearest to an integer. -/
def ofInt (n : Int) : Single :=
  match BinaryFormat.single.nearest n.natAbs 1 with
  | some steps => .finite (n < 0) steps
  | none => .infinite (n < 0)

/-- The text of a number: the fewest digits that read back, in positional notation. -/
def text : Single → String
  | .nan => "NaN"
  | .infinite negative => if negative then "-inf" else "inf"
  | .finite negative steps =>
    let magnitude := BinaryFormat.single.magnitudeText steps
    String.ofList (if negative then '-' :: magnitude else magnitude)

end Single

end Jukebox
