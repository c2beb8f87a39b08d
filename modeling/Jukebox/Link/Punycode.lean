import Jukebox.Text.Numeral

/-!
# Punycode

A label of a host name with letters outside ASCII may be written with ASCII letters,
digits and hyphens only.  The ASCII letters come first, and after the last hyphen stand,
as numbers of variable length, the other letters in order of their value with the place of
each.
-/

namespace Jukebox.Punycode

/-- The value of a digit of base 36. -/
def digit? (c : Char) : Option Nat :=
  if 'a' ≤ c && c ≤ 'z' then some (c.toNat - 97)
  else if 'A' ≤ c && c ≤ 'Z' then some (c.toNat - 65)
  else if Text.isAsciiDigit c then some (c.toNat - 22)
  else none

/-- A digit below its threshold ends a number. -/
def threshold (k bias : Nat) : Nat := min (max (k - bias) 1) 26

/-- Divide by 35 while the number is large, and count the divisions. -/
def damped (delta : Nat) : Nat × Nat :=
  if 455 < delta then
    let (rest, steps) := damped (delta / 35)
    (rest, steps + 1)
  else (delta, 0)
termination_by delta
decreasing_by exact Nat.div_lt_self (by omega) (by omega)

/-- The bias after a number, by which the next thresholds move. -/
def adapted (delta count : Nat) (first : Bool) : Nat :=
  let delta := if first then delta / 700 else delta / 2
  let (rest, steps) := damped (delta + delta / count)
  36 * steps + 36 * rest / (rest + 38)

/-- What is known while numbers are read: the letters so far, the value and the place of
the latest one, and the number that is being read. -/
structure Reading where
  letters : List Char
  value : Nat
  place : Nat
  bias : Nat
  /-- The place before the number began. -/
  origin : Nat
  /-- What the next digit counts. -/
  weight : Nat
  /-- How far the next digit is from the start, in steps of 36. -/
  k : Nat
deriving Repr

namespace Reading

/-- Nothing but the ASCII letters has been read. -/
def start (letters : List Char) : Reading := ⟨letters, 128, 0, 72, 0, 1, 36⟩

/-- No number is half read. -/
def isComplete (r : Reading) : Bool := r.k == 36

/-- The number is complete: it gives a letter and its place. -/
def insert? (r : Reading) : Option Reading :=
  let count := r.letters.length + 1
  let value := r.value + r.place / count
  let place := r.place % count
  if h : value.isValidChar then
    some {
      letters := r.letters.insertIdx place (Char.ofNatAux value h)
      value
      place := place + 1
      bias := adapted (r.place - r.origin) count (r.origin == 0)
      origin := place + 1
      weight := 1
      k := 36 }
  else none

/-- One more digit. -/
def push? (r : Reading) (c : Char) : Option Reading := do
  let digit ← digit? c
  let r := { r with place := r.place + digit * r.weight }
  if 4294967296 ≤ r.place then none
  let t := threshold r.k r.bias
  if digit < t then r.insert?
  else some { r with weight := r.weight * (36 - t), k := r.k + 36 }

end Reading

/-- The letters that a label stands for. -/
def decode? (label : List Char) : Option (List Char) := do
  let tail := (label.reverse.takeWhile (· != '-')).reverse
  let letters := (label.take (label.length - tail.length)).dropLast
  let r ← tail.foldlM Reading.push? (.start letters)
  if r.isComplete then some r.letters else none

end Jukebox.Punycode
