import Jukebox.Text.Blank
import Jukebox.Text.Numeral

/-!
# Decimal numbers

A decimal number is a sign, a row of digits and a power of ten.  Numbers keep the digits
they were written with; nothing is rounded here.
-/

namespace Jukebox

/-- The number `± digits · 10 ^ exponent`. -/
structure Decimal where
  negative : Bool
  digits : Nat
  exponent : Int
deriving DecidableEq, Repr, Inhabited

namespace Decimal

open Jukebox.Text

/-- A written exponent: digits with an optional sign. -/
def readExponent? (cs : List Char) : Option Int :=
  let (minus, digits) := match cs with
    | '-' :: rest => (true, rest)
    | '+' :: rest => (false, rest)
    | _ => (false, cs)
  if digits.isEmpty || !digits.all isAsciiDigit then none
  else some (if minus then -(ofDigits digits : Int) else ofDigits digits)

/-- Split off a written exponent, which follows the first letter `e` of either case. -/
def splitExponent (cs : List Char) : Option (List Char × Int) :=
  match cs.span (fun c => c != 'e' && c != 'E') with
  | (mantissa, []) => some (mantissa, 0)
  | (mantissa, _ :: rest) => (readExponent? rest).map fun e => (mantissa, e)

/-- Digits with at most one point among them or at either end, and an optional exponent;
no sign. -/
def readUnsigned? (cs : List Char) : Option (Nat × Int) := do
  let (mantissa, e) ← splitExponent cs
  let (whole, fraction) := (cutAt '.' mantissa).getD (mantissa, [])
  if whole.isEmpty && fraction.isEmpty then none
  else if (whole ++ fraction).all isAsciiDigit then
    some (ofDigits (whole ++ fraction), e - fraction.length)
  else none

/-- A signed decimal number in the generous spelling: a sign is optional, and digits may
be missing on one side of the point. -/
def read? (cs : List Char) : Option Decimal :=
  let (negative, rest) := match cs with
    | '-' :: rest => (true, rest)
    | '+' :: rest => (false, rest)
    | _ => (false, cs)
  (readUnsigned? rest).map fun (digits, exponent) => ⟨negative, digits, exponent⟩

/-- How many digits are written, without leading zeros. -/
def width (d : Decimal) : Nat :=
  if d.digits = 0 then 0 else (Nat.toDigits 10 d.digits).length

/-- The magnitude as a fraction of natural numbers with a positive denominator. -/
def fraction (d : Decimal) : Nat × Nat :=
  if d.exponent < 0 then (d.digits, Nat.pow 10 d.exponent.natAbs)
  else (d.digits * Nat.pow 10 d.exponent.natAbs, 1)

end Decimal

end Jukebox
