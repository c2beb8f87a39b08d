import Jukebox.Files.Basic
import Jukebox.Json.Printer
import Jukebox.Json.Reader
import Jukebox.Playlist.Snapshot
import Jukebox.Text.Lowercase

/-!
# The folder of saved playlists

Every saved playlist is a file of its name in one folder.  When it is saved again the
former version moves to the folder `deleted` inside, and comes back if writing fails.
Names are searched by how they begin, in any case of letters.
-/

namespace Jukebox

/-- The folder of saved playlists, by its written path. -/
structure PlaylistStore where
  folder : String
deriving DecidableEq, Repr

namespace PlaylistStore

/-- The extension of saved playlists. -/
def extension : String := "json"

/-- The folder of former versions. -/
def backupFolder : String := "deleted"

/-- The name that a playlist is saved under: no blank space around it, no slash of either
kind in it, and no dot in front. -/
def checkName (name : String) : Except Error String :=
  let name := Text.trim name
  if name.isEmpty then .error (.storage "falta el nombre de la lista")
  else if name.toList.contains '/' || name.toList.contains '\\' || name.toList.head? == some '.'
  then .error (.storage ("nombre de lista inválido: " ++ name))
  else .ok name

/-- The file name of a playlist. -/
def fileName (name : String) : String := name ++ "." ++ extension

/-- The written path of a playlist: a slash stands behind the folder unless one does already
or nothing is said of the folder. -/
def filePath (store : PlaylistStore) (name : String) : String :=
  if store.folder.isEmpty || store.folder.endsWith "/" then store.folder ++ fileName name
  else store.folder ++ "/" ++ fileName name

/-- The place of a playlist. -/
def place (store : PlaylistStore) (name : String) : List String :=
  Files.path store.folder ++ [fileName name]

/-- The place of a playlist's former version. -/
def backupPlace (store : PlaylistStore) (name : String) : List String :=
  Files.path store.folder ++ [backupFolder, fileName name]

/-- Write a file with `write`, after moving what was there to `backup`; if writing fails it
is moved back, as far as the disk lets it.  The files come with the result, since a failed attempt
may change them. -/
def writeWithBackup (files : Files) (path backup : List String)
    (write : Files → Files × Except FileError Unit) (restoring : Verdict := .allows) :
    Files × Except FileError Unit :=
  match files.isThere path with
  | .error e => (files, .error e)
  | .ok false => write files
  | .ok true =>
    match files.isThere backup with
    | .error e => (files, .error e)
    | .ok hadBackup =>
      match if hadBackup then files.remove backup else .ok files with
      | .error e => (files, .error e)
      | .ok cleared =>
        match cleared.rename path backup with
        | .error e => (cleared, .error e)
        | .ok moved =>
          match write moved with
          | (written, .ok ()) => (written, .ok ())
          | (written, .error e) =>
            match written.tryRename backup path restoring with
            | .ok restored => (restored, .error e)
            | .error _ => (written, .error e)

/-- Save a playlist, and tell the written path of its file.  `told` puts a failed file
operation into words. -/
def save (store : PlaylistStore) (told : FileError → String) (files : Files) (name : String)
    (snapshot : Snapshot) : Files × Except Error String :=
  match checkName name with
  | .error e => (files, .error e)
  | .ok name =>
    if snapshot.tracks.isEmpty then
      (files, .error (.storage "la lista está vacía, no se exporta"))
    else
      match files.makeDirectories (Files.path store.folder ++ [backupFolder]) with
      | .error e => (files, .error (.storage (told e)))
      | .ok files =>
        let text := Json.pretty snapshot.toJson
        match writeWithBackup files (store.place name) (store.backupPlace name)
            (·.tryWrite (store.place name) text) with
        | (files, .ok ()) => (files, .ok (store.filePath name))
        | (files, .error e) => (files, .error (.storage (told e)))

/-- Load a saved playlist.  `malformed` says what is wrong with a text that is none. -/
def load (store : PlaylistStore) (told : FileError → String) (malformed : String)
    (files : Files) (name : String) : Except Error Snapshot :=
  match checkName name with
  | .error e => .error e
  | .ok name =>
    match files.read (store.place name) with
    | .error .missing => .error (.notFound ("lista " ++ name))
    | .error e => .error (.storage (told e))
    | .ok text =>
      match (Json.read? text).bind (Snapshot.read Json.format) with
      | some snapshot => .ok snapshot
      | none => .error (.storage (store.filePath name ++ ": " ++ malformed))

/-- The playlist that a file name stands for. -/
def nameOfFile? (file : String) : Option String :=
  if Path.extension? file = some extension then some (Path.stem file) else none

/-- Whether a name begins as asked, both in lowercase. -/
def beginsWith (lead name : String) : Bool :=
  (Text.lowercased lead.toList).isPrefixOf (Text.lowercased name.toList)

/-- The names of the saved playlists that begin as asked, sorted. -/
def list (store : PlaylistStore) (told : FileError → String) (files : Files)
    (lead : Option String) : Except Error (List String) :=
  match files.names (Files.path store.folder) with
  | .error .missing => .ok []
  | .error e => .error (.storage (told e))
  | .ok names =>
    .ok (((names.filterMap nameOfFile?).filter (beginsWith (lead.getD ""))).mergeSort
      fun a b => decide (a ≤ b))

end PlaylistStore

end Jukebox
