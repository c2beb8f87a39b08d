import Jukebox.Catalog.Basic
import Jukebox.Playback.Basic

/-!
# From a number of the catalog to something that plays

A track of the catalog is first described, unless it already has a name, and then its
stream is asked for.  Only the description of the track changes.
-/

namespace Jukebox.Catalog

/-- What the catalog tells of a track. -/
structure SongDetail where
  name : Option String
  artists : List (Option Nat × Option String)
  picture : Option String
deriving DecidableEq, Repr, Inhabited

/-- Read what the catalog tells of one track. -/
def readDetail (v : Json.Value) : Option SongDetail := do
  let fields ← fieldsOf ["name", "ar", "al"] v
  let text (fields : List (String × Json.Value)) (name : String) :=
    Format.withDefault fields name none (Json.format.nullable Json.format.text)
  let album ← Format.withDefault fields "al" none <| Json.format.nullable fun v => do
    text (← fieldsOf ["picUrl"] v) "picUrl"
  return {
    name := ← text fields "name"
    artists := ← listField fields "ar" fun v => do
      let fields ← fieldsOf ["id", "name"] v
      return (← Format.withDefault fields "id" none (Json.format.nullable number),
        ← text fields "name")
    picture := album.join }

/-- Read what the catalog tells of some tracks. -/
def readDetails (v : Json.Value) : Option (List SongDetail) := do
  listField (← fieldsOf ["songs"] v) "songs" readDetail

/-- Read the streams of some tracks. -/
def readStreams (v : Json.Value) : Option (List (Option String)) := do
  listField (← fieldsOf ["data"] v) "data" fun v => do
    Format.withDefault (← fieldsOf ["url"] v) "url" none (Json.format.nullable Json.format.text)

/-- The page of a track. -/
def songPage (id : String) : String := "https://music.163.com/#/song?id=" ++ id

/-- A track with its description. -/
def describe (track : Track) (id : String) (detail : SongDetail) : Track :=
  { track with
    name := (detail.name.filter fun name => !name.isEmpty).getD "_"
    image := detail.picture
    detailUrl := some (songPage id)
    artists := detail.artists.filterMap fun (id, name) =>
      (name.filter fun name => !name.isEmpty).map fun name => ⟨name, id⟩ }

/-- The stream of a track; an empty one does not count. -/
def stream (c : Catalog) (web : Web) (headers : Headers) (id : String) :
    Exchange (Option String) := do
  let streams ← c.askWith web headers "/song/url" [("id", id)] readStreams
  return streams.head?.join.filter fun url => !url.isEmpty

/-- What a track plays from; `none` if the catalog does not have it. -/
def resolve (c : Catalog) (web : Web) (headers : Headers) (track : Track) :
    Exchange (Option ResolvedTrack) := do
  match track.remoteKey? with
  | none => throw (Error.resolution "canción sin id ni enlace")
  | some id =>
    let track ←
      if track.isResolved then pure track
      else do
        let details ← c.askWith web headers "/song/detail" [("ids", id)] readDetails
        pure (match details.head? with
          | some detail => describe track id detail
          | none => track)
    return (← c.stream web headers id).map fun url => ⟨track, url⟩

end Jukebox.Catalog
