import Jukebox.Mode
import Jukebox.Session.Basic

/-!
# Settings

The settings of the bot, their defaults, and the corrections that make them usable.
-/

namespace Jukebox

/-- The loudness a track starts with, and the range it has to lie in. -/
structure Volume where
  default : Single
  min : Single
  max : Single
deriving DecidableEq, Repr

/-- The settings of the bot. -/
structure Config where
  version : Nat
  playMode : PlayMode
  apiBaseUrl : String
  isQrLogin : Bool
  cookieRefreshIntervalMinutes : Int
  autoPauseEnabled : Bool
  header : Headers
  defaultImageUrl : String
  commandPrefix : String
  songListsDir : String
  volume : Volume
  /-- How many failures are told to the chat before a track is found. -/
  maxFailureReports : Nat
deriving DecidableEq, Repr

namespace Volume

/-- Half of the loudness, between none and all of it. -/
def standard : Volume := ⟨.half, .zero, .ofNat 1⟩

/-- The largest loudness there is. -/
def ceiling : Single := .ofNat 2

/-- The range is finite, ordered, and lies between zero and the ceiling. -/
def hasValidRange (v : Volume) : Bool :=
  v.min.isFinite && v.max.isFinite && !v.min.lt .zero && !Volume.ceiling.lt v.max
    && !v.max.lt v.min

/-- The loudness a track starts with: the default, held in the range. -/
def start (v : Volume) : Single := (v.default.max v.min).min v.max

/-- Put the standard range in place of one that is not valid. -/
def correctRange (v : Volume) : Volume × List String :=
  if v.hasValidRange then (v, [])
  else
    ({ standard with default := v.default },
      ["Rango de volumen inválido [" ++ v.min.text ++ ", " ++ v.max.text ++ "], usando [0, 1]"])

/-- Put the standard default in place of one that is not finite. -/
def correctMissing (v : Volume) : Volume × List String :=
  if v.default.isFinite then (v, [])
  else
    ({ v with default := standard.default },
      ["Volumen por defecto " ++ v.default.text ++ " inválido"])

/-- Move a default from outside into the range. -/
def correctOutside (v : Volume) : Volume × List String :=
  if v.min.le v.default && v.default.le v.max then (v, [])
  else
    ({ v with default := v.default.clamp v.min v.max },
      ["Volumen por defecto " ++ v.default.text ++ " fuera de rango"])

/-- Make the loudness usable, with a warning for each correction. -/
def validate (v : Volume) : Volume × List String :=
  let (v, range) := v.correctRange
  let (v, missing) := v.correctMissing
  let (v, outside) := v.correctOutside
  (v, range ++ missing ++ outside)

end Volume

namespace Config

/-- The version of the settings that this library writes. -/
def currentVersion : Nat := 2

/-- Whom requests name as their sender. -/
def standardUserAgent : String :=
  "Mozilla/5.0 (Windows NT 10.0; Win64; x64) AppleWebKit/537.36 (KHTML, like Gecko) " ++
    "Chrome/122.0.0.0 Safari/537.36 Edg/122.0.0.0"

/-- The settings where nothing is set. -/
def standard : Config where
  version := currentVersion
  playMode := .sequential
  apiBaseUrl := "http://127.0.0.1:3000"
  isQrLogin := false
  cookieRefreshIntervalMinutes := 30
  autoPauseEnabled := true
  header := [(cookieHeader, ""), ("User-Agent", standardUserAgent)]
  defaultImageUrl :=
    "https://cataas.com/cat/says/GoodMusic?fontSize=32&fontColor=gold&width=256&height=256"
  commandPrefix := "!"
  songListsDir := "./songlists"
  volume := .standard
  maxFailureReports := 3

instance : Inhabited Config := ⟨standard⟩

/-- The cookie in the settings. -/
def cookie (c : Config) : String := c.header.value cookieHeader

/-- A text without slashes at its end. -/
def withoutFinalSlashes (s : String) : String :=
  String.ofList ((s.toList.reverse.dropWhile (· == '/')).reverse)

/-- Put the standard address in place of a blank one, and drop slashes at its end. -/
def correctAddress (c : Config) : Config × List String :=
  let (address, warnings) :=
    if (Text.trimmed c.apiBaseUrl.toList).isEmpty then
      (standard.apiBaseUrl, ["apiBaseUrl vacío, usando el valor por defecto"])
    else (c.apiBaseUrl, [])
  ({ c with apiBaseUrl := withoutFinalSlashes address }, warnings)

/-- Put the standard prefix in place of an empty one. -/
def correctPrefix (c : Config) : Config × List String :=
  if c.commandPrefix.isEmpty then
    ({ c with commandPrefix := standard.commandPrefix }, ["commandPrefix vacío, usando '!'"])
  else (c, [])

/-- Make the loudness usable. -/
def correctVolume (c : Config) : Config × List String :=
  let (volume, warnings) := c.volume.validate
  ({ c with volume }, warnings)

/-- Add an empty cookie where there is none. -/
def ensureCookie (c : Config) : Config :=
  if c.header.has cookieHeader then c
  else { c with header := c.header.set cookieHeader "" }

/-- Make the settings usable, with a warning for each correction. -/
def validate (c : Config) : Config × List String :=
  let (c, address) := c.correctAddress
  let (c, lead) := c.correctPrefix
  let (c, volume) := c.correctVolume
  (c.ensureCookie, address ++ lead ++ volume)

/-- The settings on a few lines, without the cookie. -/
def summary (c : Config) : String :=
  let refresh :=
    if c.cookieRefreshIntervalMinutes ≤ 0 then "desactivado"
    else s!"cada {c.cookieRefreshIntervalMinutes} min"
  String.intercalate "\n  " [
    "Config Summary:",
    "API: " ++ c.apiBaseUrl,
    "Modo: " ++ c.playMode.label,
    s!"Login QR: {c.isQrLogin}, refresco de cookie: " ++ refresh,
    s!"Pausa automática: {c.autoPauseEnabled}",
    "Volumen: " ++ c.volume.default.text ++ " en [" ++ c.volume.min.text ++ ", " ++
      c.volume.max.text ++ "]",
    "Playlists: " ++ c.songListsDir]

/-- The settings with another play mode. -/
def withMode (c : Config) (mode : PlayMode) : Config := { c with playMode := mode }

/-- The settings with the cookie of a session and its kind of login. -/
def withSession (c : Config) (cookie : String) (qr : Bool) : Config :=
  { c with header := c.header.set cookieHeader cookie, isQrLogin := qr }

/-- The session that the settings begin with. -/
def session (c : Config) : Session :=
  ⟨c.header, .ofQr c.isQrLogin, c.cookieRefreshIntervalMinutes⟩

/-- The settings brought to the current version. -/
def upToDate (c : Config) : Config :=
  { c with version := Nat.max c.version currentVersion }

end Config

end Jukebox
