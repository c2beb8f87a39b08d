import Jukebox.Config.Basic
import Jukebox.Json.Format

/-!
# Settings in files

How settings are read from a data format, and how they are written as a record.  A missing
version counts as the oldest; every other missing field has its standard value.
-/

namespace Jukebox

variable {V : Type}

/-- A field with a value in a record that is written. -/
inductive Setting where
  | number (value : Int)
  | single (value : Single)
  | flag (value : Bool)
  | text (value : String)
  | record (fields : List (String × Setting))
deriving Repr, Inhabited

namespace Volume

/-- The fields of the loudness. -/
def fieldNames : List (List String) := [["default"], ["min"], ["max"]]

/-- Read the loudness. -/
def read (format : Format V) (v : V) : Option Volume := do
  let fields ← format.fields fieldNames v
  return {
    default := ← Format.withDefault fields "default" standard.default format.single
    min := ← Format.withDefault fields "min" standard.min format.single
    max := ← Format.withDefault fields "max" standard.max format.single }

/-- The loudness as a record. -/
def record (v : Volume) : Setting :=
  .record [("default", .single v.default), ("min", .single v.min), ("max", .single v.max)]

end Volume

namespace Config

/-- The fields of the settings. -/
def fieldNames : List (List String) :=
  [["version"], ["playMode"], ["apiBaseUrl"], ["isQrLogin"], ["cookieRefreshIntervalMinutes"],
    ["autoPauseEnabled"], ["header"], ["defaultImageUrl"], ["commandPrefix"], ["songListsDir"],
    ["volume"], ["failureReports"]]

/-- The largest version that can be written. -/
def maxVersion : Nat := 4294967295

/-- Read headers; of a name that occurs twice the last value counts. -/
def readHeaders (format : Format V) (v : V) : Option Headers := do
  let entries ← format.entries v
  let pairs ← entries.mapM fun entry => (format.text entry.2).map fun value => (entry.1, value)
  return Pairs.override [] pairs

/-- Read how many failures are told. -/
def readReports (format : Format V) (v : V) : Option Nat := do
  let fields ← format.fields [["maxPerCascade"]] v
  Format.withDefault fields "maxPerCascade" standard.maxFailureReports
    (format.natural Text.maxWord)

/-- Read settings. -/
def read (format : Format V) (v : V) : Option Config := do
  let fields ← format.fields fieldNames v
  return {
    version := ← Format.withDefault fields "version" 0 (format.natural maxVersion)
    playMode := ← Format.withDefault fields "playMode" standard.playMode (PlayMode.read format)
    apiBaseUrl := ← Format.withDefault fields "apiBaseUrl" standard.apiBaseUrl format.text
    isQrLogin := ← Format.withDefault fields "isQrLogin" standard.isQrLogin format.flag
    cookieRefreshIntervalMinutes := ← Format.withDefault fields "cookieRefreshIntervalMinutes"
      standard.cookieRefreshIntervalMinutes format.signedWord
    autoPauseEnabled := ← Format.withDefault fields "autoPauseEnabled" standard.autoPauseEnabled
      format.flag
    header := ← Format.withDefault fields "header" standard.header (readHeaders format)
    defaultImageUrl := ← Format.withDefault fields "defaultImageUrl" standard.defaultImageUrl
      format.text
    commandPrefix := ← Format.withDefault fields "commandPrefix" standard.commandPrefix
      format.text
    songListsDir := ← Format.withDefault fields "songListsDir" standard.songListsDir format.text
    volume := ← Format.withDefault fields "volume" standard.volume (Volume.read format)
    maxFailureReports := ← Format.withDefault fields "failureReports" standard.maxFailureReports
      (readReports format) }

/-- The settings as a record. -/
def record (c : Config) : Setting :=
  .record [
    ("version", .number c.version),
    ("playMode", .text c.playMode.name),
    ("apiBaseUrl", .text c.apiBaseUrl),
    ("isQrLogin", .flag c.isQrLogin),
    ("cookieRefreshIntervalMinutes", .number c.cookieRefreshIntervalMinutes),
    ("autoPauseEnabled", .flag c.autoPauseEnabled),
    ("header", .record (c.header.map fun (name, value) => (name, .text value))),
    ("defaultImageUrl", .text c.defaultImageUrl),
    ("commandPrefix", .text c.commandPrefix),
    ("songListsDir", .text c.songListsDir),
    ("volume", c.volume.record),
    ("failureReports", .record [("maxPerCascade", .number c.maxFailureReports)])]

end Config

end Jukebox
