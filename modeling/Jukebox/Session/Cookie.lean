import Jukebox.Session.Pairs
import Jukebox.Text.Blank
import Jukebox.Text.Lowercase

/-!
# Cookies

A cookie header is a row of `name=value` pairs between semicolons.  Attributes of the
cookie, such as its path, are left out.  Of a name that occurs several times the last value
counts, at the place of the first; a fresh cookie is laid over an older one by the same
rule.
-/

namespace Jukebox

/-- The pairs of a cookie header, in order; no name occurs twice. -/
abbrev Cookie := Pairs

namespace Cookie

open Jukebox.Text

/-- The names of cookie attributes, which are no session values. -/
def attributeNames : List String :=
  ["expires", "path", "domain", "max-age", "secure", "httponly", "samesite"]

/-- The name of a cookie attribute, in any case of letters. -/
def isAttribute (name : String) : Bool :=
  attributeNames.any fun known => sameAsciiLetters known name

/-- Name and value of what stands between two semicolons; the value may be missing. -/
def readPair (part : List Char) : String × String :=
  match cutAt '=' part with
  | some (name, value) => (String.ofList (trimmed name), String.ofList (trimmed value))
  | none => (String.ofList (trimmed part), "")

/-- A pair that belongs to the session. -/
def isKept (pair : String × String) : Bool :=
  !pair.1.isEmpty && !isAttribute pair.1

/-- The pairs of a cookie header. -/
def parse (raw : String) : Cookie :=
  Pairs.override [] (((pieces (· == ';') raw.toList).map readPair).filter isKept)

/-- A cookie header. -/
def format (cookie : Cookie) : String :=
  String.intercalate "; " (cookie.map fun pair => pair.1 ++ "=" ++ pair.2)

/-- A cookie header with nothing but its pairs. -/
def normalize (raw : String) : String :=
  format (parse raw)

/-- A cookie header with a fresh one laid over it. -/
def merge (current fresh : String) : String :=
  format (Pairs.override (parse current) (parse fresh))

end Cookie

end Jukebox
