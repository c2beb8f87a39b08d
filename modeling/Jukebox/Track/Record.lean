import Jukebox.Json.Format
import Jukebox.Track.Basic

/-!
# Tracks in files

How artists, tracks and playlists are written as JSON objects, and how they are read from
a data format.  Every field but an artist's name may be missing; two of them have a former
name besides.
-/

namespace Jukebox

variable {V : Type}

namespace Artist

/-- The fields of an artist. -/
def fieldNames : List (List String) := [["Name"], ["Id"]]

/-- Read an artist, who has to have a name. -/
def read (format : Format V) (v : V) : Option Artist := do
  let fields ← format.fields fieldNames v
  return {
    name := ← Format.required fields "Name" format.text
    id := ← Format.withDefault fields "Id" none (format.nullable (format.natural Text.maxWord)) }

/-- Write an artist. -/
def toJson (artist : Artist) : Json.Value :=
  .object [("Name", .text artist.name), ("Id", .ofOption .ofNat artist.id)]

end Artist

namespace Track

/-- The fields of a track. -/
def fieldNames : List (List String) :=
  [["RemoteId", "NCMId"], ["Name"], ["Image"], ["DetailUrl"], ["DirectUrl"],
    ["InPlaylist", "InPlayList"], ["Artists"]]

/-- Read a track. -/
def read (format : Format V) (v : V) : Option Track := do
  let fields ← format.fields fieldNames v
  let link (name : String) := Format.withDefault fields name none (format.nullable format.text)
  return {
    remoteId := ← link "RemoteId"
    name := ← Format.withDefault fields "Name" "" format.text
    image := ← link "Image"
    detailUrl := ← link "DetailUrl"
    directUrl := ← link "DirectUrl"
    inPlaylist := ← Format.withDefault fields "InPlaylist" false format.flag
    artists := ← Format.withDefault fields "Artists" [] (format.list (Artist.read format)) }

/-- Write a track with all its fields. -/
def toJson (track : Track) : Json.Value :=
  .object [
    ("RemoteId", .ofOption .text track.remoteId),
    ("Name", .text track.name),
    ("Image", .ofOption .text track.image),
    ("DetailUrl", .ofOption .text track.detailUrl),
    ("DirectUrl", .ofOption .text track.directUrl),
    ("InPlaylist", .flag track.inPlaylist),
    ("Artists", .ofList Artist.toJson track.artists)]

end Track

namespace PlaylistMeta

/-- The fields of a playlist. -/
def fieldNames : List (List String) := [["Id", "NCMId"], ["Name"], ["Image"], ["DirectUrl"]]

/-- Read what is known of a playlist. -/
def read (format : Format V) (v : V) : Option PlaylistMeta := do
  let fields ← format.fields fieldNames v
  let text (name : String) := Format.withDefault fields name none (format.nullable format.text)
  return {
    id := ← text "Id"
    name := ← text "Name"
    image := ← text "Image"
    directUrl := ← text "DirectUrl" }

/-- Write what is known of a playlist. -/
def toJson (playlist : PlaylistMeta) : Json.Value :=
  .object [
    ("Id", .ofOption .text playlist.id),
    ("Name", .ofOption .text playlist.name),
    ("Image", .ofOption .text playlist.image),
    ("DirectUrl", .ofOption .text playlist.directUrl)]

end PlaylistMeta

end Jukebox
