/-!
# Base64

The standard alphabet with padding.  Reading is strict: full groups of four characters,
padding only at the end, and no bits set that the padding leaves over.
-/

namespace Jukebox.Base64

/-- The value of a character of the alphabet. -/
def value? (c : Char) : Option Nat :=
  if 'A' ≤ c && c ≤ 'Z' then some (c.toNat - 65)
  else if 'a' ≤ c && c ≤ 'z' then some (c.toNat - 71)
  else if '0' ≤ c && c ≤ '9' then some (c.toNat + 4)
  else if c == '+' then some 62
  else if c == '/' then some 63
  else none

/-- The bytes of one group that is not the last. -/
def group? (a b c d : Char) : Option (List UInt8) := do
  let a ← value? a
  let b ← value? b
  let c ← value? c
  let d ← value? d
  let n := ((a * 64 + b) * 64 + c) * 64 + d
  return [UInt8.ofNat (n / 65536), UInt8.ofNat (n / 256), UInt8.ofNat n]

/-- The bytes of the last group, which may be padded. -/
def lastGroup? (a b c d : Char) : Option (List UInt8) :=
  if d == '=' then do
    let a ← value? a
    let b ← value? b
    if c == '=' then
      if b % 16 != 0 then none
      return [UInt8.ofNat (a * 4 + b / 16)]
    else
      let c ← value? c
      if c % 4 != 0 then none
      return [UInt8.ofNat (a * 4 + b / 16), UInt8.ofNat (b * 16 + c / 4)]
  else group? a b c d

/-- The bytes that base64 text stands for. -/
def decode? : List Char → Option (List UInt8)
  | [] => some []
  | [a, b, c, d] => lastGroup? a b c d
  | a :: b :: c :: d :: rest => do
    let bytes ← group? a b c d
    let more ← decode? rest
    return bytes ++ more
  | _ => none

end Jukebox.Base64
