import Jukebox.Mode
import Jukebox.Track.Record

/-!
# Saved playlists

A saved playlist holds a play mode, tracks and what is known of the playlist.  All three
may be missing; the last two have a former name besides.
-/

namespace Jukebox

/-- A playlist as it is saved. -/
structure Snapshot where
  mode : Option PlayMode
  tracks : List Track
  playlist : Option PlaylistMeta
deriving DecidableEq, Repr, Inhabited

namespace Snapshot

/-- The fields of a saved playlist. -/
def fieldNames : List (List String) :=
  [["Mode"], ["MusicInfoList", "MusicList"], ["PlayListMeta", "Meta"]]

/-- Read a saved playlist. -/
def read {V : Type} (format : Format V) (v : V) : Option Snapshot := do
  let fields ← format.fields fieldNames v
  return {
    mode := ← Format.withDefault fields "Mode" none (format.nullable (PlayMode.read format))
    tracks := ← Format.withDefault fields "MusicInfoList" [] (format.list (Track.read format))
    playlist := ← Format.withDefault fields "PlayListMeta" none
      (format.nullable (PlaylistMeta.read format)) }

/-- Write a saved playlist. -/
def toJson (s : Snapshot) : Json.Value :=
  .object [
    ("Mode", .ofOption (fun mode => .text mode.name) s.mode),
    ("MusicInfoList", .ofList Track.toJson s.tracks),
    ("PlayListMeta", .ofOption PlaylistMeta.toJson s.playlist)]

end Snapshot

end Jukebox
