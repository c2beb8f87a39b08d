import Jukebox.Catalog.Web
import Jukebox.Json.Reader
import Jukebox.Link.Basic
import Jukebox.Session.Account
import Jukebox.Track.Record

/-!
# The catalog

Searching for tracks and playlists, reading a playlist, and the questions about a login.
Every question goes out with the headers of the session.  An answer that fails to come, has
a status other than success, or does not have the expected shape is one and the same
failure.
-/

namespace Jukebox

/-- The catalog at an address, with the headers of a session. -/
structure Catalog where
  base : String
  headers : Headers
  /-- What is said of a request that fails. -/
  failure : String
deriving Repr

namespace Catalog

/-- The catalog at an address; slashes at its end count for nothing. -/
def new (base : String) (headers : Headers) (failure : String) : Catalog :=
  ⟨String.ofList (base.toList.reverse.dropWhile (· == '/')).reverse, headers, failure⟩

/-- What a question fails with. -/
def failed (c : Catalog) : Error := .resolution c.failure

/-- The request for a path. -/
def request (c : Catalog) (path : String) (query : List (String × String)) (headers : Headers) :
    WebRequest :=
  ⟨.get, c.base ++ path, query, true, headers⟩

/-- Ask with some headers, and read the answer. -/
def askWith {α : Type} (c : Catalog) (web : Web) (headers : Headers) (path : String)
    (query : List (String × String)) (read : Json.Value → Option α) : Exchange α := do
  match ← (c.request path query headers).send web with
  | none => throw c.failed
  | some body =>
    match (Json.read? body).bind read with
    | some answer => return answer
    | none => throw c.failed

/-- Ask with the headers of the session, and read the answer. -/
def ask {α : Type} (c : Catalog) (web : Web) (path : String) (query : List (String × String))
    (read : Json.Value → Option α) : Exchange α :=
  c.askWith web c.headers path query read

/-- Read the fields of an object, none of which has a second name. -/
def fieldsOf (names : List String) (v : Json.Value) : Option (List (String × Json.Value)) :=
  Json.format.fields (names.map ([·])) v

/-- A field that may be absent, but not null. -/
def listField {α : Type} (fields : List (String × Json.Value)) (name : String)
    (read : Json.Value → Option α) : Option (List α) :=
  Format.withDefault fields name [] (Json.format.list read)

/-- A number of the catalog. -/
def number (v : Json.Value) : Option Nat := Json.format.natural Text.maxWord v

/-- An object of which only the number counts. -/
def idOnly (v : Json.Value) : Option Nat := do
  Format.required (← fieldsOf ["id"] v) "id" number

/-- What a search found. -/
structure Found where
  songs : List Nat
  playlists : List Nat
deriving DecidableEq, Repr, Inhabited

/-- Read what a search found. -/
def readFound (v : Json.Value) : Option Found := do
  let fields ← fieldsOf ["result"] v
  let result ← Format.withDefault fields "result" none <| Json.format.nullable fun v => do
    let fields ← fieldsOf ["songs", "playlists"] v
    return (⟨← listField fields "songs" idOnly, ← listField fields "playlists" idOnly⟩ : Found)
  return result.getD ⟨[], []⟩

/-- The number of the first track that a search finds. -/
def searchSong (c : Catalog) (web : Web) (words : String) : Exchange (Option String) := do
  let found ← c.ask web "/search" [("keywords", words), ("limit", "1")] readFound
  return found.songs.head?.map toString

/-- The number of the first playlist that a search finds. -/
def searchPlaylist (c : Catalog) (web : Web) (words : String) : Exchange (Option String) := do
  let found ←
    c.ask web "/search" [("keywords", words), ("limit", "1"), ("type", "1000")] readFound
  return found.playlists.head?.map toString

/-- What the catalog tells of a playlist. -/
structure PlaylistDetail where
  id : Nat
  name : Option String
  cover : Option String
  trackCount : Option Nat
deriving DecidableEq, Repr, Inhabited

/-- Read what the catalog tells of a playlist. -/
def readPlaylist (v : Json.Value) : Option (Option PlaylistDetail) := do
  let fields ← fieldsOf ["playlist"] v
  Format.withDefault fields "playlist" none <| Json.format.nullable fun v => do
    let fields ← fieldsOf ["id", "name", "coverImgUrl", "trackCount"] v
    let text (name : String) :=
      Format.withDefault fields name none (Json.format.nullable Json.format.text)
    return {
      id := ← Format.required fields "id" number
      name := ← text "name"
      cover := ← text "coverImgUrl"
      trackCount := ← Format.withDefault fields "trackCount" none (Json.format.nullable number) }

/-- Read the tracks of a playlist. -/
def readTracks (v : Json.Value) : Option (List Nat) := do
  listField (← fieldsOf ["songs"] v) "songs" idOnly

/-- A playlist with its tracks, by its number, a link to it, or its name. -/
def playlist (c : Catalog) (web : Web) (wanted : String) :
    Exchange (PlaylistMeta × List Track) := do
  let id ← match Link.catalogId? wanted with
    | some id => pure id
    | none =>
      match ← c.searchPlaylist web wanted with
      | some id => pure id
      | none => throw (.notFound ("playlist " ++ wanted))
  match ← c.ask web "/playlist/detail" [("id", id)] readPlaylist with
  | none => throw (.notFound ("playlist " ++ id))
  | some detail =>
    let about : PlaylistMeta := ⟨some (toString detail.id), detail.name, detail.cover, none⟩
    if detail.trackCount = some 0 then return (about, [])
    let numbers ← c.ask web "/playlist/track/all" [("id", toString detail.id)] readTracks
    return (about, (numbers.filter (0 < ·)).map fun n => .remote (toString n))

/-- Ask about a login. -/
def askStatus (c : Catalog) (web : Web) (path : String) (query : List (String × String)) :
    Exchange ApiStatus :=
  c.ask web path query (ApiStatus.read Json.format)

/-- Read a text inside of `data`. -/
def readData (name : String) (v : Json.Value) : Option String := do
  Format.required (← fieldsOf ["data"] v) "data" fun v => do
    Format.required (← fieldsOf [name] v) name Json.format.text

/-- Put a question to the catalog. -/
def respond (c : Catalog) (web : Web) (call : ApiCall) :
    StateM (List WebRequest) ApiReply :=
  match call with
  | .qrKey => .text <$> (c.ask web "/login/qr/key" [] (readData "unikey")).run
  | .qrImage key =>
    .text <$>
      (c.ask web "/login/qr/create" [("key", key), ("qrimg", "true")] (readData "qrimg")).run
  | .qrCheck key => .status <$> (c.askStatus web "/login/qr/check" [("key", key)]).run
  | .sendCaptcha phone => .status <$> (c.askStatus web "/captcha/sent" [("phone", phone)]).run
  | .verifyCaptcha phone code =>
    .status <$> (c.askStatus web "/captcha/verify" [("phone", phone), ("captcha", code)]).run
  | .loginCellphone phone code =>
    .status <$> (c.askStatus web "/login/cellphone" [("phone", phone), ("captcha", code)]).run
  | .refresh headers =>
    .fragment <$> (do
      let status ← c.askWith web headers "/login/refresh" [] (ApiStatus.read Json.format)
      return if status.code = ApiStatus.success then some (status.cookie.getD "") else none
      : Exchange (Option String)).run

end Catalog

end Jukebox
