import Jukebox.Text.Blank
import Jukebox.Text.Lowercase

/-!
# Tracks

A track is known by its number in the catalog or by a direct link, which may lead to a file
or to an address; everything else is description, and may be filled in later.
-/

namespace Jukebox

/-- Where the sound of a track comes from. -/
inductive AudioSource where
  /-- A file on the disk. -/
  | localFile
  /-- An address that plays as it stands. -/
  | url
  /-- A number in the catalog. -/
  | catalog
deriving DecidableEq, Repr, Inhabited

/-- An artist of a track. -/
structure Artist where
  name : String
  id : Option Nat
deriving DecidableEq, Repr, Inhabited

/-- A track as the queue knows it. -/
structure Track where
  remoteId : Option String
  name : String
  image : Option String
  detailUrl : Option String
  directUrl : Option String
  inPlaylist : Bool
  artists : List Artist
deriving DecidableEq, Repr

/-- What is known of a playlist as a whole. -/
structure PlaylistMeta where
  id : Option String
  name : Option String
  image : Option String
  directUrl : Option String
deriving DecidableEq, Repr

/-- Whether a link is an address of the web, in any case of letters. -/
def isHttp (link : String) : Bool :=
  let lower := Text.lowercased link.toList
  "http://".toList.isPrefixOf lower || "https://".toList.isPrefixOf lower

namespace AudioSource

/-- The name of a source in files. -/
def name : AudioSource → String
  | .localFile => "Local"
  | .url => "Url"
  | .catalog => "ExternalCatalog"

/-- The source with a name. -/
def ofName? (s : String) : Option AudioSource :=
  [AudioSource.localFile, .url, .catalog].find? fun source => source.name == s

/-- The source meant by a tag: its first letter decides, in any case, after any number of
leading `#`. -/
def ofTag? (tag : String) : Option AudioSource :=
  match Text.lowercased ((Text.trimmed tag.toList).dropWhile (· == '#')) with
  | [] => none
  | c :: _ =>
    if c = 'l' || c = 'b' then some .localFile
    else if c = 'n' || c = 'w' then some .catalog
    else if c = 'u' then some .url
    else none

end AudioSource

namespace PlaylistMeta

/-- A playlist of which nothing is known. -/
def unknown : PlaylistMeta := ⟨none, none, none, none⟩

end PlaylistMeta

/-- An empty text counts as absent. -/
def nonEmpty? : Option String → Option String
  | some s => if s.isEmpty then none else some s
  | none => none

namespace Track

/-- A track of which nothing is known. -/
def unknown : Track := ⟨none, "", none, none, none, false, []⟩

instance : Inhabited Track := ⟨unknown⟩

/-- A track of the catalog. -/
def remote (id : String) : Track :=
  { unknown with remoteId := some id, inPlaylist := true }

/-- A file or an address that is played as it stands. -/
def direct (link : String) : Track :=
  { unknown with directUrl := some link }

/-- The number in the catalog, if it says anything. -/
def remoteKey? (track : Track) : Option String := nonEmpty? track.remoteId

/-- The direct link, if it says anything. -/
def directKey? (track : Track) : Option String := nonEmpty? track.directUrl

/-- Both are present and equal. -/
def agree : Option String → Option String → Bool
  | some a, some b => a == b
  | _, _ => false

/-- Two descriptions mean the same track when their catalog numbers agree or their direct
links do. -/
def same (a b : Track) : Bool :=
  agree a.remoteKey? b.remoteKey? || agree a.directKey? b.directKey?

/-- Where the sound comes from. -/
def source (track : Track) : AudioSource :=
  match track.directKey? with
  | some link => if isHttp link then .url else .localFile
  | none => .catalog

/-- The path of a track that is a file. -/
def localPath? (track : Track) : Option String :=
  match track.source with
  | .localFile => track.directUrl
  | _ => none

/-- Its description has been filled in. -/
def isResolved (track : Track) : Bool := !track.name.isEmpty

theorem agree_comm (a b : Option String) : agree a b = agree b a := by
  cases a <;> cases b <;> simp [agree, BEq.comm]

theorem same_comm (a b : Track) : same a b = same b a := by
  simp only [same, agree_comm]

end Track

end Jukebox
