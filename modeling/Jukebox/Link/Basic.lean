import Jukebox.Text.Blank
import Jukebox.Text.Lowercase
import Jukebox.Text.Numeral

/-!
# Links that people type

A link may be wrapped in angle brackets or in `[URL]…[/URL]`.  A number of the catalog is
typed as it is or stands in a link as the parameter `id`.
-/

namespace Jukebox.Link

/-- The text without `lead` in front, in any case of ASCII letters. -/
def stripLead? (lead cs : List Char) : Option (List Char) :=
  if (cs.take lead.length).map Char.toLower = lead then some (cs.drop lead.length) else none

/-- A character that may stand in a wrapped link. -/
def isInner (c : Char) : Bool := !Text.isBlank c && c != '['

/-- The link between `[URL]` and `[/URL]` at the head of a text. -/
def wrappedHere? (cs : List Char) : Option (List Char) := do
  let rest ← stripLead? "[url]".toList cs
  let inner := rest.takeWhile isInner
  let _ ← stripLead? "[/url]".toList (rest.dropWhile isInner)
  if inner.isEmpty then none else some inner

/-- The first link of a text that stands between `[URL]` and `[/URL]`. -/
def wrapped? : List Char → Option (List Char)
  | [] => none
  | c :: cs => (wrappedHere? (c :: cs)).orElse fun _ => wrapped? cs

/-- The text without a pair of angle brackets around it. -/
def withoutBrackets (cs : List Char) : List Char :=
  match cs with
  | '<' :: inner => if inner.getLast? = some '>' then inner.dropLast else cs
  | _ => cs

/-- The link that was typed, without what it is wrapped in; `none` if only blanks were
typed. -/
def plain? (typed : String) : Option String :=
  let cs := Text.trimmed typed.toList
  if cs.isEmpty then none
  else some (String.ofList (withoutBrackets ((wrapped? cs).getD cs)))

/-- ASCII digits and nothing else. -/
def isNumber (s : String) : Bool := !s.isEmpty && s.toList.all Text.isAsciiDigit

/-- The digits after `id=` at the head of a text. -/
def idHere? (cs : List Char) : Option (List Char) :=
  match cs with
  | 'i' :: 'd' :: '=' :: rest =>
    let digits := rest.takeWhile Text.isDecimalDigit
    if digits.isEmpty then none else some digits
  | _ => none

/-- The digits after the first `id=` that is followed by a digit of any script. -/
def idParameter? : List Char → Option (List Char)
  | [] => none
  | c :: cs => (idHere? (c :: cs)).orElse fun _ => idParameter? cs

/-- The number in the catalog that a text gives: its parameter `id`, or all of it. -/
def catalogId? (typed : String) : Option String :=
  match idParameter? typed.toList with
  | some digits => some (String.ofList digits)
  | none =>
    let trimmed := Text.trim typed
    if isNumber trimmed then some trimmed else none

end Jukebox.Link
