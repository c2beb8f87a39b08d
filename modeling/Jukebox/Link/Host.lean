import Jukebox.Link.Punycode
import Jukebox.Text.Blank
import Jukebox.Text.Lowercase

/-!
# Hosts

The host of an address is a name, four numbers with points between them, or eight groups of
hexadecimal digits in square brackets.  Names may hold letters of any script; compatible
forms of the ASCII characters stand for them, and invisible characters are left out.  A name
whose last label is a number has to be an address of four numbers.

Of the rules for names outside ASCII, as such or in punycode, `Host.isName` leaves out those
on the direction of writing, on joined letters, on rarer marks and on which characters are
assigned.  What is proved of addresses does not depend on it: the names are a parameter.
-/

namespace Jukebox.Host

/-- Characters outside ASCII that no name may hold: controls, and what stands for a blank or
for a separator of an address. -/
def refusedRanges : List (Nat × Nat) := [
  (0x80, 0xA0), (0xA8, 0xA8), (0xAF, 0xAF), (0xB4, 0xB4), (0xB8, 0xB8), (0x2D8, 0x2DD),
  (0x37A, 0x37A), (0x384, 0x385), (0x600, 0x605), (0x61C, 0x61C), (0x6DD, 0x6DD), (0x70F, 0x70F),
  (0x890, 0x891), (0x8E2, 0x8E2), (0x1680, 0x1680), (0x1FBD, 0x1FBD), (0x1FBF, 0x1FC1),
  (0x1FCD, 0x1FCF), (0x1FDD, 0x1FDF), (0x1FED, 0x1FEE), (0x1FFD, 0x1FFE), (0x2000, 0x200A),
  (0x200E, 0x200F), (0x2017, 0x2017), (0x2024, 0x2026), (0x2028, 0x202F), (0x203E, 0x203E),
  (0x2047, 0x2049), (0x205F, 0x205F), (0x2066, 0x2069), (0x2100, 0x2101), (0x2105, 0x2106),
  (0x2488, 0x249B), (0x2A74, 0x2A74), (0x2FF0, 0x2FFB), (0x3000, 0x3000), (0x309B, 0x309C),
  (0x33C2, 0x33C2), (0x33C7, 0x33C7), (0x33D8, 0x33D8), (0xE000, 0xF8FF), (0xFC5E, 0xFC63),
  (0xFDFA, 0xFDFB), (0xFE12, 0xFE13), (0xFE16, 0xFE16), (0xFE19, 0xFE19), (0xFE30, 0xFE30),
  (0xFE47, 0xFE4C), (0xFE52, 0xFE52), (0xFE55, 0xFE56), (0xFE5F, 0xFE5F), (0xFE64, 0xFE65),
  (0xFE68, 0xFE68), (0xFE6A, 0xFE6B), (0xFE70, 0xFE70), (0xFE72, 0xFE72), (0xFE74, 0xFE74),
  (0xFE76, 0xFE76), (0xFE78, 0xFE78), (0xFE7A, 0xFE7A), (0xFE7C, 0xFE7C), (0xFE7E, 0xFE7E),
  (0xFFE3, 0xFFE3), (0xFFF9, 0xFFFF), (0x110BD, 0x110BD), (0x110CD, 0x110CD), (0x13430, 0x13438),
  (0x1F100, 0x1F100), (0x323B0, 0xE00FF), (0xE01F0, 0x10FFFF)]

/-- Characters that a name may hold and that are left out of it. -/
def ignoredRanges : List (Nat × Nat) := [
  (0xAD, 0xAD), (0x34F, 0x34F), (0x115F, 0x1160), (0x17B4, 0x17B5), (0x180B, 0x180F),
  (0x200B, 0x200B), (0x2060, 0x2064), (0x206A, 0x206F), (0x3164, 0x3164), (0xFE00, 0xFE0F),
  (0xFEFF, 0xFEFF), (0xFFA0, 0xFFA0), (0x1BCA0, 0x1BCA3), (0x1D173, 0x1D17A), (0xE0100, 0xE01EF)]

/-- Marks that combine with the letter before them. -/
def markRanges : List (Nat × Nat) := [
  (0x300, 0x36F), (0x483, 0x489), (0x591, 0x5BD), (0x610, 0x61A), (0x64B, 0x65F), (0x670, 0x670),
  (0x900, 0x903), (0x93A, 0x93C), (0x93E, 0x94F), (0x1AB0, 0x1ACE), (0x1DC0, 0x1DFF),
  (0x20D0, 0x20F0), (0x302A, 0x302F), (0x3099, 0x309A), (0xFE20, 0xFE2F)]

/-- The first and the last of a run of compatible digits, with the digit that the first
stands for. -/
def digitRuns : List (Nat × Nat × Nat) := [
  (0xB2, 0xB3, 2), (0xB9, 0xB9, 1), (0x2070, 0x2070, 0), (0x2074, 0x2079, 4), (0x2080, 0x2089, 0),
  (0x2460, 0x2468, 1), (0x24EA, 0x24EA, 0), (0x1D7CE, 0x1D7D7, 0), (0x1D7D8, 0x1D7E1, 0),
  (0x1D7E2, 0x1D7EB, 0), (0x1D7EC, 0x1D7F5, 0), (0x1D7F6, 0x1D7FF, 0), (0x1FBF0, 0x1FBF9, 0)]

/-- ASCII characters that no name may hold. -/
def isForbidden (c : Char) : Bool :=
  c.toNat ≤ 0x20 || c.toNat == 0x7F || "%#/:<>?@[\\]^|".toList.contains c

/-- A character whose value lies in one of the ranges. -/
def isAmong (ranges : List (Nat × Nat)) (c : Char) : Bool :=
  ranges.any fun (first, last) => first ≤ c.toNat && c.toNat ≤ last

/-- What a character of a name stands for, in lowercase. -/
def mapped (c : Char) : List Char :=
  let n := c.toNat
  if n < 0x80 then [c.toLower]
  else if n == 0x3002 || n == 0xFF61 then ['.']
  else if 0xFF01 ≤ n && n ≤ 0xFF5E then [(Char.ofNat (n - 0xFEE0)).toLower]
  else
    match digitRuns.find? fun (first, last, _) => first ≤ n && n ≤ last with
    | some (first, _, digit) => [Char.ofNat (0x30 + digit + (n - first))]
    | none => if isAmong ignoredRanges c then [] else Text.lowercaseChar c

/-- A character that may stand in a name. -/
def isAllowed (c : Char) : Bool := !isForbidden c && !isAmong refusedRanges c

/-- A label in mapped form: it begins with no mark, and if it is written in punycode it
stands for letters that are not all ASCII and are in mapped form themselves. -/
def isLabel (label : List Char) : Bool :=
  !(label.head?.any (isAmong markRanges)) &&
    match label with
    | 'x' :: 'n' :: '-' :: '-' :: code =>
      match Punycode.decode? code with
      | some letters =>
        letters.any (fun c => 0x80 ≤ c.toNat)
          && letters.all (fun c => isAllowed c && mapped c == [c])
          && !(letters.head?.any (isAmong markRanges))
      | none => false
    | _ => true

/-- A hexadecimal digit. -/
def isHexDigit (c : Char) : Bool :=
  Text.isAsciiDigit c || ('a' ≤ c && c ≤ 'f') || ('A' ≤ c && c ≤ 'F')

/-- The number that digits of a base stand for, or nothing if one is no such digit. -/
def number? (base : Nat) (cs : List Char) : Option Nat :=
  cs.foldlM
    (fun n c => do
      let digit ← Punycode.digit? c
      let digit := if Text.isAsciiDigit c then digit - 26 else digit + 10
      if digit < base then some (base * n + digit) else none)
    0

/-- A part of an address of four numbers: decimal, or octal after `0`, or hexadecimal after
`0x`, where nothing stands for zero. -/
def part? (cs : List Char) : Option Nat :=
  match cs with
  | [] => none
  | '0' :: 'x' :: digits => number? 16 digits
  | '0' :: c :: digits => number? 8 (c :: digits)
  | _ => number? 10 cs

/-- The last label of a name that is not empty, unless two points end the name. -/
def lastLabel (labels : List (List Char)) : List Char :=
  match labels.reverse with
  | [] => []
  | [] :: label :: _ => label
  | label :: _ => label

/-- The last label reads as a number. -/
def endsInNumber (labels : List (List Char)) : Bool :=
  let label := lastLabel labels
  (!label.isEmpty && label.all Text.isAsciiDigit) || (part? label).isSome

/-- Up to four numbers: the last one fills the bytes that the others leave. -/
def isFourNumbers (labels : List (List Char)) : Bool :=
  let labels := if labels.getLast? == some [] then labels.dropLast else labels
  match (labels.mapM part?).map List.reverse with
  | some (last :: others) =>
    others.length ≤ 3 && others.all (· ≤ 255) && last < Nat.pow 256 (4 - others.length)
  | _ => false

/-- One of four numbers at the end of a bracketed host: up to 255, without needless zeros. -/
def isOctet (cs : List Char) : Bool :=
  cs.all Text.isAsciiDigit
    && match cs with
      | [] => false
      | ['0'] => true
      | '0' :: _ => false
      | _ => Text.ofDigits cs ≤ 255

/-- Four numbers with points between them. -/
def isDotted (cs : List Char) : Bool :=
  let parts := Text.pieces (· == '.') cs
  parts.length == 4 && parts.all isOctet

/-- One to four hexadecimal digits. -/
def isGroup (cs : List Char) : Bool :=
  !cs.isEmpty && cs.length ≤ 4 && cs.all isHexDigit

/-- How many groups some pieces are; only the last one of all, `isEnd`, may be four numbers,
which count as two. -/
def groupCount? (isEnd : Bool) : List (List Char) → Option Nat
  | [] => some 0
  | piece :: rest =>
    if isGroup piece then (groupCount? isEnd rest).map (· + 1)
    else if isEnd && rest.isEmpty && isDotted piece then some 2
    else none

/-- The groups of a part of a bracketed host. -/
def groupsOf? (isEnd : Bool) (cs : List Char) : Option Nat :=
  if cs.isEmpty then some 0 else groupCount? isEnd (Text.pieces (· == ':') cs)

/-- Cut at the first pair of colons. -/
def cutAtPair : List Char → Option (List Char × List Char)
  | ':' :: ':' :: rest => some ([], rest)
  | c :: rest => (cutAtPair rest).map fun (before, after) => (c :: before, after)
  | [] => none

/-- What stands in square brackets: eight groups, or fewer with one pair of colons for those
left out. -/
def isGroups (cs : List Char) : Bool :=
  match cutAtPair cs with
  | some (before, after) =>
    match groupsOf? false before, groupsOf? true after with
    | some m, some n => m + n ≤ 7
    | _, _ => false
  | none => !cs.isEmpty && groupsOf? true cs == some 8

/-- The bytes of a text in which `%` and two hexadecimal digits stand for a byte. -/
def percentDecoded : List Char → List UInt8
  | '%' :: a :: b :: rest =>
    match number? 16 [a, b] with
    | some n => UInt8.ofNat n :: percentDecoded rest
    | none => 0x25 :: percentDecoded (a :: b :: rest)
  | c :: rest => (String.singleton c).toUTF8.toList ++ percentDecoded rest
  | [] => []

/-- The characters of a host name, percent signs resolved. -/
def letters? (cs : List Char) : Option (List Char) :=
  (String.fromUTF8? ⟨(percentDecoded cs).toArray⟩).map String.toList

/-- A name, or four numbers. -/
def isName (cs : List Char) : Bool :=
  match letters? cs with
  | none => false
  | some letters =>
    let name := letters.flatMap mapped
    let labels := Text.pieces (· == '.') name
    letters.all (fun c => !isAmong refusedRanges c) && name.all isAllowed && !name.isEmpty
      && labels.all isLabel && (!endsInNumber labels || isFourNumbers labels)

/-- A host of an address, where `names` are the names and the four numbers. -/
def isHost (names : List Char → Bool) (cs : List Char) : Bool :=
  match cs with
  | '[' :: inner => inner.getLast? == some ']' && isGroups inner.dropLast
  | _ => names cs

end Jukebox.Host
