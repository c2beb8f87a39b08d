import Jukebox.Files.Basic
import Jukebox.Yaml.Writer

/-!
# Settings that are kept in a file

The settings in memory, the path of their file, and the file itself among others.  Loading
never fails: a missing file is made, settings of an older version are brought up to date
and saved, and of a file that cannot be read the standard settings are taken while the
file stays as it is.  Every change is saved; where that fails the change stays in memory.
Settings are read by `Config.ofYaml?` unless another reader is given, and the disk allows what is
written unless it says otherwise.
-/

namespace Jukebox

/-- The settings in memory and the path of their file. -/
structure ConfigStore where
  path : List String
  current : Config
deriving DecidableEq, Repr

namespace Config

/-- The settings that a text stands for. -/
def ofYaml? (text : String) : Option Config :=
  (Yaml.Node.read? text).bind (read Yaml.format)

/-- The text of settings. -/
def toYaml (c : Config) : String := Yaml.document c.record

/-- The settings that a file holds: `missing` where there is none, `refused` where it
cannot be read. -/
def load (files : Files) (path : List String) (reads : String → Option Config := ofYaml?) :
    Except FileError Config := do
  match reads (← files.read path) with
  | some c => .ok c
  | none => .error .refused

end Config

namespace ConfigStore

/-- Save the settings, and make the directories around their file. -/
def save (store : ConfigStore) (files : Files) (disk : Verdict := .allows) :
    Files × Except FileError Unit :=
  match files.makeDirectories store.path.dropLast with
  | .ok files => files.tryWrite store.path store.current.toYaml disk
  | .error e => (files, .error e)

/-- Settings from a file, and whether they have to be saved at once. -/
def found (files : Files) (path : List String) (reads : String → Option Config := Config.ofYaml?) :
    Config × Bool :=
  match Config.load files path reads with
  | .ok c => (c, c.version < Config.currentVersion)
  | .error .missing => (.standard, true)
  | .error .refused => (.standard, false)

/-- Load the settings from their file. -/
def load (files : Files) (path : List String) (reads : String → Option Config := Config.ofYaml?) :
    ConfigStore × Files :=
  let (config, outdated) := found files path reads
  let store : ConfigStore := ⟨path, config.validate.1.upToDate⟩
  if outdated then (store, (store.save files).1) else (store, files)

/-- Change the settings and save them. -/
def update (store : ConfigStore) (files : Files) (change : Config → Config)
    (disk : Verdict := .allows) : ConfigStore × Files × Except FileError Unit :=
  let store := { store with current := change store.current }
  let (files, result) := store.save files disk
  (store, files, result)

/-- Change the play mode and save. -/
def updateMode (store : ConfigStore) (files : Files) (mode : PlayMode)
    (disk : Verdict := .allows) : ConfigStore × Files × Except FileError Unit :=
  store.update files (·.withMode mode) disk

/-- Change the cookie and the kind of login, and save. -/
def updateSession (store : ConfigStore) (files : Files) (cookie : String) (qr : Bool)
    (disk : Verdict := .allows) : ConfigStore × Files × Except FileError Unit :=
  store.update files (·.withSession cookie qr) disk

end ConfigStore

end Jukebox
