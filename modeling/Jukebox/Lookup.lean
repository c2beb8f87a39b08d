import Jukebox.Catalog.Basic
import Jukebox.Files.Path
import Jukebox.Files.Basic

/-!
# What a query means

A query is a file or an address that answers, or a place in the queue, or a number of the
catalog, or words to search for.  Without a source these are tried in this order; with one,
only what belongs to the source.
-/

namespace Jukebox

/-- What a query means. -/
inductive LookupTarget where
  | track (track : Track)
  /-- A place in the queue, counted from zero. -/
  | queueItem (index : Nat)
deriving DecidableEq, Repr

/-- What a query means, and what is said about it. -/
structure Lookup where
  target : LookupTarget
  notices : List String
deriving DecidableEq, Repr

namespace Lookup

/-- Said where a query holds the sign that chooses a source. -/
def signNotice : String :=
  "ℹ️ Se detectó \"#\" en el nombre; para elegir la fuente usa `play <canción> #n`"

/-- Said before the catalog is searched for want of anything else. -/
def searchNotice : String := "🔍 No es un archivo ni un enlace, buscando en el catálogo"

/-- Said of a number that is no place in the queue. -/
def positionNotice (typed : String) : String :=
  "⚠️ La cola no tiene la posición " ++ typed ++ "; si es un id del catálogo usa `#n`"

/-- The place in the queue that a number means, counted from one when it is typed. -/
def position? (typed : String) (length : Nat) : Option Nat := do
  let n ← Text.readWord? typed.toList
  if 1 ≤ n ∧ n ≤ length then some (n - 1) else none

/-- A track of the catalog that was asked for by itself. -/
def single (id : String) : Track := { Track.remote id with inPlaylist := false }

/-- An address answers. -/
def answers (web : Web) (link : String) : StateM (List WebRequest) Bool := do
  if Address.isWeb link web.names then
    return (← (WebRequest.mk .head link [] false []).send web).isSome
  else return false

/-- A file or an address that answers; `isFile` says which files there are. -/
def direct? (isFile : String → Bool) (web : Web) (query : String) :
    StateM (List WebRequest) (Option Track) := do
  match Link.plain? query with
  | none => return none
  | some link =>
    if (Text.trim link).isEmpty then return none
    else if isFile link then return some (.direct link)
    else if ← answers web link then return some (.direct link)
    else return none

/-- A track of the catalog: the number that the query gives, or the first that a search
finds. -/
def inCatalog (c : Catalog) (web : Web) (query : String) : Exchange LookupTarget := do
  match Link.catalogId? query with
  | some id => return .track (single id)
  | none =>
    match ← c.searchSong web query with
    | some id => return .track (single id)
    | none => throw (.notFound query)

/-- A place in the queue that a query means, or what is said if it is none. -/
def inQueue (query : String) (length : Nat) : Option Nat × List String :=
  match Link.plain? query with
  | none => (none, [])
  | some link =>
    if Link.isNumber link then
      match position? link length with
      | some index => (some index, [])
      | none => (none, [positionNotice link])
    else (none, [])

/-- What a query means where no source is given. -/
def anywhere (isFile : String → Bool) (c : Catalog) (web : Web) (query : String)
    (length : Nat) : Exchange (LookupTarget × List String) := do
  match ← direct? isFile web query with
  | some track => return (.track track, [])
  | none =>
    match inQueue query length with
    | (some index, notices) => return (.queueItem index, notices)
    | (none, notices) => return (← inCatalog c web query, notices ++ [searchNotice])

end Lookup

/-- Find out what a query means, where the queue has so many tracks. -/
def lookup (isFile : String → Bool) (c : Catalog) (web : Web) (query : String)
    (source : Option AudioSource) (length : Nat) : Exchange Lookup := do
  let sign := if query.toList.contains '#' then [Lookup.signNotice] else []
  let (target, notices) ← match source with
    | some .catalog => do pure (← Lookup.inCatalog c web query, [])
    | some _ =>
      match ← Lookup.direct? isFile web query with
      | some track => pure (.track track, [])
      | none => throw (.notFound query)
    | none => Lookup.anywhere isFile c web query length
  return ⟨target, sign ++ notices⟩

end Jukebox
