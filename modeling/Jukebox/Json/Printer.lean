import Jukebox.Json.Value

/-!
# Writing JSON

Two layouts: on one line without any space, and one field or item a line with two spaces
for each level.  In a string the quote, the backslash and the control characters are
escaped, and nothing else.
-/

namespace Jukebox.Json

/-- A hexadecimal digit in lower case. -/
def hexDigit (n : Nat) : Char :=
  if n < 10 then Char.ofNat (48 + n) else Char.ofNat (87 + n)

/-- A character as it is written inside a string. -/
def escaped (c : Char) : List Char :=
  if c == '"' then ['\\', '"']
  else if c == '\\' then ['\\', '\\']
  else if c == '\n' then ['\\', 'n']
  else if c == '\r' then ['\\', 'r']
  else if c == '\t' then ['\\', 't']
  else if c == '\x08' then ['\\', 'b']
  else if c == '\x0c' then ['\\', 'f']
  else if c.toNat < 0x20 then
    ['\\', 'u', '0', '0', hexDigit (c.toNat / 16), hexDigit (c.toNat % 16)]
  else [c]

/-- A string with its quotes. -/
def quoted (s : String) : String :=
  "\"" ++ String.ofList (s.toList.flatMap escaped) ++ "\""

/-- A string that is half of a surrogate pair. -/
def halfPair : String := "\"\\ud800\""

/-- A number; one with a point or an exponent is written with an exponent. -/
def numberText : Number → String
  | .integer n => toString n
  | .decimal d =>
    (if d.negative then "-" else "") ++ toString d.digits ++ "e" ++ toString d.exponent

mutual

/-- A value on one line. -/
def compact : Value → String
  | .null => "null"
  | .flag b => if b then "true" else "false"
  | .number n => numberText n
  | .text s => quoted s
  | .unreadable => halfPair
  | .array items => "[" ++ compactItems items ++ "]"
  | .object fields => "\x7b" ++ compactFields fields ++ "\x7d"

/-- Items with commas between them. -/
def compactItems : List Value → String
  | [] => ""
  | [v] => compact v
  | v :: w :: rest => compact v ++ "," ++ compactItems (w :: rest)

/-- Fields with commas between them. -/
def compactFields : List (String × Value) → String
  | [] => ""
  | [(name, v)] => quoted name ++ ":" ++ compact v
  | (name, v) :: f :: rest => quoted name ++ ":" ++ compact v ++ "," ++ compactFields (f :: rest)

end

/-- A new line at a level. -/
def newLine (level : Nat) : String :=
  "\n" ++ String.ofList (List.replicate (2 * level) ' ')

mutual

/-- A value that begins at a level, one field or item a line. -/
def prettyAt (level : Nat) : Value → String
  | .null => "null"
  | .flag b => if b then "true" else "false"
  | .number n => numberText n
  | .text s => quoted s
  | .unreadable => halfPair
  | .array [] => "[]"
  | .array (v :: items) => "[" ++ prettyItems (level + 1) (v :: items) ++ newLine level ++ "]"
  | .object [] => "\x7b\x7d"
  | .object (f :: fields) =>
    "\x7b" ++ prettyFields (level + 1) (f :: fields) ++ newLine level ++ "\x7d"

/-- Items at a level, each on a line of its own. -/
def prettyItems (level : Nat) : List Value → String
  | [] => ""
  | [v] => newLine level ++ prettyAt level v
  | v :: w :: rest => newLine level ++ prettyAt level v ++ "," ++ prettyItems level (w :: rest)

/-- Fields at a level, each on a line of its own. -/
def prettyFields (level : Nat) : List (String × Value) → String
  | [] => ""
  | [(name, v)] => newLine level ++ quoted name ++ ": " ++ prettyAt level v
  | (name, v) :: f :: rest =>
    newLine level ++ quoted name ++ ": " ++ prettyAt level v ++ "," ++
      prettyFields level (f :: rest)

end

/-- A value with one field or item a line. -/
def pretty (v : Value) : String := prettyAt 0 v

end Jukebox.Json
