import Jukebox.Json.Value

/-!
# The tokens of JSON text

The scanner reads characters one by one and never looks back.  Blank space is the four
characters that JSON names.  A string may hold any character above the control characters,
and escapes; where one half of a surrogate pair is escaped without the other, the string
can only be passed over.  A number is accepted in the spelling of JSON only.
-/

namespace Jukebox.Json

/-- A token of JSON text. -/
inductive Token where
  | openArray | closeArray | openObject | closeObject
  | comma | colon
  | text (value : String)
  /-- A string with a half of a surrogate pair. -/
  | unreadable
  | atom (value : Value)
deriving Repr, Inhabited

/-- Blank space between tokens. -/
def isSpace (c : Char) : Bool :=
  c == ' ' || c == '\t' || c == '\n' || c == '\r'

/-- The value of a hexadecimal digit. -/
def hexValue? (c : Char) : Option Nat :=
  if '0' ≤ c && c ≤ '9' then some (c.toNat - 48)
  else if 'a' ≤ c && c ≤ 'f' then some (c.toNat - 87)
  else if 'A' ≤ c && c ≤ 'F' then some (c.toNat - 55)
  else none

/-- The value of four hexadecimal digits. -/
def hexQuad? (a b c d : Char) : Option Nat := do
  let a ← hexValue? a
  let b ← hexValue? b
  let c ← hexValue? c
  let d ← hexValue? d
  return ((a * 16 + b) * 16 + c) * 16 + d

/-- A first half of a surrogate pair. -/
def isHighSurrogate (n : Nat) : Bool := 0xD800 ≤ n && n ≤ 0xDBFF

/-- A second half of a surrogate pair. -/
def isLowSurrogate (n : Nat) : Bool := 0xDC00 ≤ n && n ≤ 0xDFFF

/-- The character of a surrogate pair. -/
def pairedChar (high low : Nat) : Char :=
  Char.ofNat (0x10000 + (high - 0xD800) * 0x400 + (low - 0xDC00))

/-- The characters of these code units, if each half of a surrogate pair has the other. -/
def paired? : List Nat → Option (List Char)
  | [] => some []
  | n :: units =>
    if isHighSurrogate n then
      match units with
      | m :: units =>
        if isLowSurrogate m then (paired? units).map (pairedChar n m :: ·) else none
      | [] => none
    else if isLowSurrogate n then none
    else (paired? units).map (Char.ofNat n :: ·)

/-- The string of these code units. -/
def textToken (units : List Nat) : Token :=
  match paired? units with
  | some cs => .text (String.ofList cs)
  | none => .unreadable

/-- The character of a short escape such as `\n`. -/
def shortEscape? : Char → Option Char
  | '"' => some '"'
  | '\\' => some '\\'
  | '/' => some '/'
  | 'b' => some '\x08'
  | 'f' => some '\x0c'
  | 'n' => some '\n'
  | 'r' => some '\r'
  | 't' => some '\t'
  | _ => none

/-- A character of a number or of one of the three words. -/
def isBare (c : Char) : Bool :=
  ('0' ≤ c && c ≤ '9') || ('a' ≤ c && c ≤ 'z') || c == 'E' || c == '-' || c == '+' || c == '.'

/-- One or more digits, and what follows them. -/
def digitRun? (cs : List Char) : Option (List Char × List Char) :=
  match cs.span Text.isAsciiDigit with
  | ([], _) => none
  | run => some run

/-- The exponent part of a number, to the end. -/
def readExponent? : List Char → Option Int
  | [] => some 0
  | 'e' :: rest => Decimal.readExponent? rest
  | 'E' :: rest => Decimal.readExponent? rest
  | _ => none

/-- A number in the spelling of JSON: no plus in front, no needless zero in front, and a
digit on both sides of the point. -/
def readNumber? (cs : List Char) : Option Number := do
  let (negative, rest) := match cs with
    | '-' :: rest => (true, rest)
    | _ => (false, cs)
  let (whole, rest) ← digitRun? rest
  if whole.head? == some '0' && whole.length != 1 then none
  match rest with
  | [] =>
    let n := Text.ofDigits whole
    if negative && n == 0 then return .decimal ⟨true, 0, 0⟩
    return .integer (if negative then -(n : Int) else n)
  | '.' :: rest =>
    let (fraction, rest) ← digitRun? rest
    let exponent ← readExponent? rest
    return .decimal ⟨negative, Text.ofDigits (whole ++ fraction), exponent - fraction.length⟩
  | rest =>
    let exponent ← readExponent? rest
    return .decimal ⟨negative, Text.ofDigits whole, exponent⟩

/-- A number or one of the words `null`, `true` and `false`. -/
def readAtom? (cs : List Char) : Option Value :=
  if cs == ['n', 'u', 'l', 'l'] then some .null
  else if cs == ['t', 'r', 'u', 'e'] then some (.flag true)
  else if cs == ['f', 'a', 'l', 's', 'e'] then some (.flag false)
  else (readNumber? cs).map .number

/-- The token of a single character. -/
def punctuation? : Char → Option Token
  | '[' => some .openArray
  | ']' => some .closeArray
  | '{' => some .openObject
  | '}' => some .closeObject
  | ',' => some .comma
  | ':' => some .colon
  | _ => none

/-- Where the scanner stands: between tokens, inside a string, or inside a number or
word; what was read of the token is kept in reverse, of a string its code units, so that
halves of pairs may come one by one. -/
inductive ScanState where
  | between
  | inText (read : List Nat)
  | inBare (read : List Char)

/-- The tokens of the characters, after those in `done` (in reverse). -/
def scanFrom (done : List Token) : ScanState → List Char → Option (List Token)
  | .between, [] => some done.reverse
  | .between, c :: cs =>
    if isSpace c then scanFrom done .between cs
    else if c == '"' then scanFrom done (.inText []) cs
    else match punctuation? c with
      | some token => scanFrom (token :: done) .between cs
      | none => if isBare c then scanFrom done (.inBare [c]) cs else none
  | .inBare read, [] => do
    let value ← readAtom? read.reverse
    some (Token.atom value :: done).reverse
  | .inBare read, c :: cs =>
    if isBare c then scanFrom done (.inBare (c :: read)) cs
    else do
      let value ← readAtom? read.reverse
      let done := Token.atom value :: done
      if isSpace c then scanFrom done .between cs
      else match punctuation? c with
        | some token => scanFrom (token :: done) .between cs
        | none => none
  | .inText _, [] => none
  | .inText read, '"' :: cs => scanFrom (textToken read.reverse :: done) .between cs
  | .inText read, '\\' :: 'u' :: a :: b :: c :: d :: cs =>
    match hexQuad? a b c d with
    | some n => scanFrom done (.inText (n :: read)) cs
    | none => none
  | .inText read, '\\' :: c :: cs =>
    match shortEscape? c with
    | some c => scanFrom done (.inText (c.toNat :: read)) cs
    | none => none
  | .inText read, c :: cs =>
    if c == '\\' || c.toNat < 0x20 then none
    else scanFrom done (.inText (c.toNat :: read)) cs

/-- The tokens of JSON text. -/
def scan (cs : List Char) : Option (List Token) :=
  scanFrom [] .between cs

end Jukebox.Json
