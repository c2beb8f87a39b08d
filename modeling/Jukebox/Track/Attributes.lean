import Jukebox.Span
import Jukebox.Track.Basic

/-!
# Attributes of a request to play

Behind what is to be played may stand words that begin with `@`, for the place to start
at, or with `#`, for the source.  The last word of each kind counts, also when it means
nothing.
-/

namespace Jukebox

/-- Where to start and which source to take. -/
structure PlayAttributes where
  offset : Option Span
  source : Option AudioSource
deriving DecidableEq, Repr

namespace PlayAttributes

/-- Nothing is asked for. -/
def empty : PlayAttributes := ⟨none, none⟩

instance : Inhabited PlayAttributes := ⟨empty⟩

/-- One more attribute. -/
def accept (attributes : PlayAttributes) (word : String) : PlayAttributes :=
  match Text.trimmed word.toList with
  | '@' :: rest => { attributes with offset := Span.read? (String.ofList rest) }
  | '#' :: rest => { attributes with source := AudioSource.ofTag? (String.ofList rest) }
  | _ => attributes

/-- The attributes that some words stand for. -/
def ofWords (words : List String) : PlayAttributes :=
  words.foldl accept empty

/-- Nothing is asked for. -/
def isEmpty (attributes : PlayAttributes) : Bool :=
  attributes.offset.isNone && attributes.source.isNone

end PlayAttributes

end Jukebox
