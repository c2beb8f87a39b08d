import Jukebox.Files.Path
import Jukebox.Track.Basic

/-!
# The names of tracks

A track is shown by its title, else by the last part of its link, else by its number in
the catalog, else by a word for the unknown; its artists follow.
-/

namespace Jukebox.Track

/-- What follows the last slash. -/
def afterLastSlash (link : String) : String :=
  (Path.parts link).getLastD link

/-- A name cut out of a link: of an address what follows the last slash, of a file its name
without the extension, or the whole link if it has no name. -/
def linkName (link : String) : String :=
  if isHttp link then afterLastSlash link
  else match Path.fileName? link with
    | some name => Path.stem name
    | none => link

/-- The name a track is shown by. -/
def displayName (track : Track) : String :=
  if !track.name.isEmpty then track.name
  else match track.directKey? with
    | some link => linkName link
    | none =>
      match track.remoteKey? with
      | some id => "#" ++ id
      | none => "Desconocido"

/-- The artists on one line. -/
def artistLine (track : Track) : String :=
  String.intercalate " / " (track.artists.map Artist.name)

/-- The name with the artists behind it. -/
def fullName (track : Track) : String :=
  if track.artistLine.isEmpty then track.displayName
  else track.displayName ++ " - " ++ track.artistLine

end Jukebox.Track
