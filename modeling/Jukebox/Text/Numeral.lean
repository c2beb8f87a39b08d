/-!
# Numerals

Decimal digits of every script, and the bounded natural numbers that are typed with ASCII
digits.
-/

namespace Jukebox.Text

/-- The zeros of the runs of ten decimal digits (general category `Nd`). -/
def digitZeros : List Nat := [
  0x30, 0x660, 0x6f0, 0x7c0, 0x966, 0x9e6, 0xa66, 0xae6, 0xb66, 0xbe6, 0xc66, 0xce6, 0xd66, 0xde6,
  0xe50, 0xed0, 0xf20, 0x1040, 0x1090, 0x17e0, 0x1810, 0x1946, 0x19d0, 0x1a80, 0x1a90, 0x1b50,
  0x1bb0, 0x1c40, 0x1c50, 0xa620, 0xa8d0, 0xa900, 0xa9d0, 0xa9f0, 0xaa50, 0xabf0, 0xff10, 0x104a0,
  0x10d30, 0x10d40, 0x11066, 0x110f0, 0x11136, 0x111d0, 0x112f0, 0x11450, 0x114d0, 0x11650,
  0x116c0, 0x116d0, 0x116da, 0x11730, 0x118e0, 0x11950, 0x11bf0, 0x11c50, 0x11d50, 0x11da0,
  0x11f50, 0x16130, 0x16a60, 0x16ac0, 0x16b50, 0x16d70, 0x1ccf0, 0x1d7ce, 0x1d7d8, 0x1d7e2,
  0x1d7ec, 0x1d7f6, 0x1e140, 0x1e2f0, 0x1e4f0, 0x1e5f1, 0x1e950, 0x1fbf0]

/-- A decimal digit of any script. -/
def isDecimalDigit (c : Char) : Bool :=
  let n := c.toNat
  digitZeros.any fun first => first ≤ n && n ≤ first + 9

/-- One of the ASCII digits `0` to `9`. -/
def isAsciiDigit (c : Char) : Bool :=
  '0' ≤ c && c ≤ '9'

/-- The value of an ASCII digit. -/
def digitValue (c : Char) : Nat :=
  c.toNat - 48

/-- The number that a row of ASCII digits stands for, most significant first. -/
def ofDigits (cs : List Char) : Nat :=
  cs.foldl (fun n c => 10 * n + digitValue c) 0

/-- The largest number of a machine word of 64 bits. -/
def maxWord : Nat := 18446744073709551615

/-- Signed words of 64 bits begin at the negative of this number and end before it. -/
def signedBound : Nat := 9223372036854775808

/-- A natural number up to `limit`: at least one ASCII digit, with at most one plus in
front, and nothing else. -/
def readNatural? (limit : Nat) (cs : List Char) : Option Nat :=
  let digits := match cs with
    | '+' :: rest => rest
    | _ => cs
  if !digits.isEmpty && digits.all isAsciiDigit && ofDigits digits ≤ limit then
    some (ofDigits digits)
  else none

/-- A number of 64 bits, see `readNatural?`. -/
def readWord? (cs : List Char) : Option Nat :=
  readNatural? maxWord cs

end Jukebox.Text
