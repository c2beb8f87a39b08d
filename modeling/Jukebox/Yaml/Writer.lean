import Jukebox.Config.Record
import Jukebox.Yaml.Format

/-!
# Writing settings as YAML

A record is written as a block mapping with two spaces for each level.  A text stands
plain if it is a simple word or address that cannot be taken for anything else, and in
double quotes with escapes otherwise.
-/

namespace Jukebox.Yaml

/-- A character that may stand anywhere in a plain text. -/
def isSafe (c : Char) : Bool :=
  c.isAlphanum || c == '_' || c == '-' || c == '/' || c == '.' || c == '='

/-- A text that may stand plain: it begins with a letter or a slash, holds only safe
characters, and is neither a truth value nor null. -/
def isPlainText (s : String) : Bool :=
  match s.toList with
  | [] => false
  | c :: cs =>
    (c.isAlpha || c == '/') && cs.all isSafe
      && !(["true", "false", "null", "yes", "no", "on", "off", "y", "n"].any
        fun word => word.toList == (c :: cs).map Char.toLower)

/-- A hexadecimal digit. -/
def hexDigit (n : Nat) : Char :=
  if n < 10 then Char.ofNat (48 + n) else Char.ofNat (87 + n)

/-- A character inside double quotes. -/
def quotedChar (c : Char) : List Char :=
  if c == '"' then ['\\', '"']
  else if c == '\\' then ['\\', '\\']
  else if c == '\n' then ['\\', 'n']
  else if c == '\t' then ['\\', 't']
  else if c.toNat == 0x85 then ['\\', 'N']
  else if isPrintable c then [c]
  else if c.toNat < 0x100 then
    ['\\', 'x', hexDigit (c.toNat / 16), hexDigit (c.toNat % 16)]
  else
    ['\\', 'u', hexDigit (c.toNat / 4096), hexDigit (c.toNat / 256 % 16),
      hexDigit (c.toNat / 16 % 16), hexDigit (c.toNat % 16)]

/-- A text as a scalar. -/
def scalarText (s : String) : String :=
  if isPlainText s then s
  else "\"" ++ String.ofList (s.toList.flatMap quotedChar) ++ "\""

/-- A number of single precision; a point is always written. -/
def singleText : Single → String
  | .nan => ".nan"
  | .infinite negative => if negative then "-.inf" else ".inf"
  | x =>
    let text := x.text
    if text.toList.contains '.' then text else text ++ ".0"

/-- The spaces of a level. -/
def indentation (level : Nat) : String :=
  String.ofList (List.replicate (2 * level) ' ')

mutual

/-- What stands behind the colon of a field at a level. -/
def settingText (level : Nat) : Setting → String
  | .number n => " " ++ toString n ++ "\n"
  | .single x => " " ++ singleText x ++ "\n"
  | .flag b => (if b then " true" else " false") ++ "\n"
  | .text s => " " ++ scalarText s ++ "\n"
  | .record [] => " \x7b\x7d\n"
  | .record (f :: fields) => "\n" ++ fieldsText (level + 1) (f :: fields)

/-- Fields at a level, each on a line of its own. -/
def fieldsText (level : Nat) : List (String × Setting) → String
  | [] => ""
  | (name, setting) :: rest =>
    indentation level ++ scalarText name ++ ":" ++ settingText level setting
      ++ fieldsText level rest

end

/-- A record as a YAML document. -/
def document : Setting → String
  | .record fields => fieldsText 0 fields
  | setting => settingText 0 setting

end Jukebox.Yaml
