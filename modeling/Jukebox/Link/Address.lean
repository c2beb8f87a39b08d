import Jukebox.Link.Host

/-!
# Addresses of the web

Which texts are addresses with the scheme `http` or `https`.  Blanks and controls at either
end are no part of an address, tabs and line breaks are skipped everywhere, any number of
slashes or backslashes may follow the scheme, and after the port anything may stand.
-/

namespace Jukebox.Address

/-- A space or a control of ASCII. -/
def isControl (c : Char) : Bool := c.toNat ≤ 0x20

/-- The characters of an address that count. -/
def significant (cs : List Char) : List Char :=
  ((cs.dropWhile isControl).reverse.dropWhile isControl).reverse.filter fun c =>
    c != '\t' && c != '\n' && c != '\r'

/-- A slash of either kind. -/
def isSlash (c : Char) : Bool := c == '/' || c == '\\'

/-- A character before which user, host and port end. -/
def endsAuthority (c : Char) : Bool := isSlash c || c == '?' || c == '#'

/-- What follows `http:` or `https:`, in any case of letters. -/
def afterScheme? (cs : List Char) : Option (List Char) :=
  let (scheme, rest) := (cs.takeWhile (· != ':'), cs.dropWhile (· != ':'))
  match rest with
  | ':' :: rest =>
    let scheme := scheme.map Char.toLower
    if scheme == "http".toList || scheme == "https".toList then some rest else none
  | _ => none

/-- Host and port of an authority: what follows its last `@`. -/
def withoutUser (cs : List Char) : List Char :=
  (cs.reverse.takeWhile (· != '@')).reverse

/-- Cut a host off its port: at the first colon that is not in square brackets. -/
def cutHost (inBrackets : Bool) : List Char → List Char × List Char
  | [] => ([], [])
  | c :: cs =>
    if c == ':' && !inBrackets then ([], c :: cs)
    else
      let (host, rest) := cutHost ((inBrackets || c == '[') && c != ']') cs
      (c :: host, rest)

/-- Nothing, or a colon with a number up to 65535, which may be left out. -/
def isPort (cs : List Char) : Bool :=
  match cs with
  | [] => true
  | ':' :: digits => digits.all Text.isAsciiDigit && Text.ofDigits digits ≤ 65535
  | _ => false

/-- A text that is an address with the scheme `http` or `https`, where hosts may have these
names. -/
def isWeb (text : String) (names : List Char → Bool := Host.isName) : Bool :=
  match afterScheme? (significant text.toList) with
  | none => false
  | some rest =>
    let authority := (rest.dropWhile isSlash).takeWhile fun c => !endsAuthority c
    let (host, port) := cutHost false (withoutUser authority)
    !host.isEmpty && Host.isHost names host && isPort port

end Jukebox.Address
