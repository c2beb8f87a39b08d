import Jukebox.Text.Blank
import Jukebox.Text.Numeral

/-!
# Spans of time

A span is written as a whole number of seconds, or as numbers with units such as
`1h 2m 3.5s`, which add up.  Blank space may stand anywhere between digits and around
units.  A number may have a fraction if it comes to whole nanoseconds of a short unit or
to whole seconds of a long one.  Every number on the way has to fit a word of 64 bits.
-/

namespace Jukebox

/-- A span of time in nanoseconds. -/
structure Span where
  nanoseconds : Nat
deriving DecidableEq, Repr, Inhabited

namespace Span

open Jukebox.Text

/-- Nanoseconds in a second. -/
def perSecond : Nat := 1000000000

/-- A number of whole seconds. -/
def ofSeconds (n : Nat) : Span := ⟨n * perSecond⟩

/-- The whole seconds. -/
def seconds (s : Span) : Nat := s.nanoseconds / perSecond

/-- The nanoseconds beyond the whole seconds. -/
def beyondSeconds (s : Span) : Nat := s.nanoseconds % perSecond

/-- A unit of time: a short one counts nanoseconds, a long one counts seconds. -/
structure Scale where
  /-- Nanoseconds or seconds in a whole unit. -/
  whole : Nat
  /-- Whether `whole` counts nanoseconds. -/
  short : Bool
  /-- What a fraction is a part of: nanoseconds or seconds; nothing for the smallest unit. -/
  part : Option Nat
  /-- Whether `part` counts nanoseconds. -/
  partShort : Bool

/-- A unit that counts whole seconds throughout. -/
def Scale.long (seconds : Nat) : Scale := ⟨seconds, false, some seconds, false⟩

/-- The unit with a name; the letter of months is a capital. -/
def Scale.ofName? (name : String) : Option Scale :=
  if ["nanos", "nsec", "ns"].contains name then some ⟨1, true, none, true⟩
  else if ["usec", "us", "µs"].contains name then some ⟨1000, true, some 1000, true⟩
  else if ["millis", "msec", "ms"].contains name then
    some ⟨1000000, true, some 1000000, true⟩
  else if ["seconds", "second", "secs", "sec", "s"].contains name then
    some ⟨1, false, some 1000000000, true⟩
  else if ["minutes", "minute", "min", "mins", "m"].contains name then
    some ⟨60, false, some 60000000000, true⟩
  else if ["hours", "hour", "hr", "hrs", "h"].contains name then some (.long 3600)
  else if ["days", "day", "d"].contains name then some (.long 86400)
  else if ["weeks", "week", "wk", "wks", "w"].contains name then some (.long 604800)
  else if ["months", "month", "M"].contains name then some (.long 2630016)
  else if ["years", "year", "yr", "yrs", "y"].contains name then some (.long 31557600)
  else none

/-- A number that fits a word of 64 bits. -/
def inWord? (n : Nat) : Option Nat :=
  if n ≤ maxWord then some n else none

/-- A span `count` nanoseconds or seconds longer. -/
def add? (s : Span) (count : Nat) (short : Bool) : Option Span := do
  let longer : Span ←
    if short then do
      let _ ← inWord? (s.beyondSeconds + count)
      pure ⟨s.nanoseconds + count⟩
    else pure ⟨s.nanoseconds + count * perSecond⟩
  let _ ← inWord? longer.seconds
  return longer

/-- A span longer by `n` units and a fraction of one. -/
def addUnits? (s : Span) (n : Nat) (fraction : Option (Nat × Nat)) (name : String) :
    Option Span := do
  let scale ← Scale.ofName? name
  let count ← inWord? (n * scale.whole)
  let s ← s.add? count scale.short
  match fraction with
  | none => return s
  | some (num, den) =>
    let part ← scale.part
    let count ← inWord? (num * part)
    if count % den != 0 then none
    s.add? (count / den) scale.partShort

/-- Where the reader stands. -/
inductive Reading where
  /-- Before a number; blank space is passed over. -/
  | before
  /-- In the whole part of a number. -/
  | whole (n : Nat)
  /-- In the fraction of a number, a numerator and a denominator. -/
  | fraction (n num den : Nat)
  /-- In the name of a unit, kept in reverse. -/
  | unit (n : Nat) (fraction : Option (Nat × Nat)) (name : List Char)

/-- A letter of a unit's name. -/
def isUnitLetter (c : Char) : Bool :=
  ('a' ≤ c && c ≤ 'z') || ('A' ≤ c && c ≤ 'Z') || c == 'µ'

/-- Add up the numbers that follow to the span `s`. -/
def readFrom (s : Span) : Reading → List Char → Option Span
  | .before, [] => some s
  | .before, c :: cs =>
    if isAsciiDigit c then readFrom s (.whole (digitValue c)) cs
    else if isBlank c then readFrom s .before cs
    else none
  | .whole _, [] => none
  | .whole n, c :: cs =>
    if isAsciiDigit c then
      match inWord? (10 * n + digitValue c) with
      | some n => readFrom s (.whole n) cs
      | none => none
    else if isBlank c then readFrom s (.whole n) cs
    else if isUnitLetter c then readFrom s (.unit n none [c]) cs
    else if c == '.' then readFrom s (.fraction n 0 1) cs
    else none
  | .fraction _ _ _, [] => none
  | .fraction n num den, c :: cs =>
    if isAsciiDigit c then
      match inWord? (10 * num + digitValue c), inWord? (10 * den) with
      | some num, some den => readFrom s (.fraction n num den) cs
      | _, _ => none
    else if isBlank c then readFrom s (.fraction n num den) cs
    else if isUnitLetter c then
      if den = 1 then none else readFrom s (.unit n (some (num, den)) [c]) cs
    else none
  | .unit n fraction name, [] => s.addUnits? n fraction (String.ofList name.reverse)
  | .unit n fraction name, c :: cs =>
    if isUnitLetter c then readFrom s (.unit n fraction (c :: name)) cs
    else
      match s.addUnits? n fraction (String.ofList name.reverse) with
      | none => none
      | some s =>
        if isAsciiDigit c then readFrom s (.whole (digitValue c)) cs
        else if isBlank c then readFrom s .before cs
        else none

/-- A span written as numbers with units; there has to be at least one. -/
def readUnits? (cs : List Char) : Option Span :=
  if cs.all isBlank then none else readFrom ⟨0⟩ .before cs

/-- A span written as whole seconds or as numbers with units. -/
def read? (s : String) : Option Span :=
  match readWord? s.toList with
  | some n => some (ofSeconds n)
  | none => readUnits? s.toList

end Span

end Jukebox
