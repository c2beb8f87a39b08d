import Jukebox.Command.Basic
import Jukebox.Embed
import Jukebox.Playback.Stage

/-!
# What is posted in answer to a command

A command goes to playback, to the saved playlists, to the catalog or to the voice channel,
and is answered with a text or a card once that has ended.
-/

namespace Jukebox

/-- What is posted in answer. -/
inductive Reply where
  | text (text : String)
  | card (card : Embed)
  | nothing
deriving DecidableEq, Repr

/-- How a command ends well. -/
inductive Completion where
  /-- Playback has answered. -/
  | answered (answer : Answer)
  /-- The track that was to be added is in the queue already, at this place from zero. -/
  | alreadyQueued (index : Nat)
  /-- So many tracks were saved. -/
  | saved (count : Nat)
  /-- So many tracks were loaded. -/
  | loaded (count : Nat)
  /-- The saved playlists that were asked for. -/
  | listed (names : List String)
  /-- A playlist of the catalog with so many tracks was added. -/
  | playlist (name : String) (count : Nat)
  | loggedIn
  | codeSent
  | connected
  | disconnected
  /-- The commands were asked for. -/
  | helped

namespace PlayOutcome

/-- The outcome in the words of the chat. -/
def describe : PlayOutcome → String
  | .started => "▶️ Reproduciendo"
  | .resumed => "▶️ Reproducción reanudada"
  | .alreadyPlaying => "ℹ️ Ya está sonando"
  | .queued position => s!"➕ Agregada a la cola (posición {position})"
  | .stopped => "⏹️ Reproducción detenida"
  | .queueEmpty => "📭 La cola está vacía"
  | .exhausted => "⚠️ Ninguna canción se pudo reproducir"
  | .superseded => "⏭️ Otra petición tomó el control"

end PlayOutcome

namespace Command

/-- What a command asks of playback, where it needs nothing else. -/
def request? : Command → Option Request
  | .play none _ => some .play
  | .next => some .playNext
  | .previous => some .previous
  | .stop => some (.stop false)
  | .pause => some .togglePause
  | .mode none => some .mode
  | .mode (some chosen) => some (.setMode chosen)
  | .move i j => some (.exchange i j)
  | .remove index => some (.remove index)
  | .shuffle => some .shuffle
  | .clear => some .clear
  | .status limit => some (.status limit)
  | .exportList _ => some .snapshot
  | _ => none

/-- What is said of a failure. -/
def failureText (e : Error) : String := "❌ " ++ e.message

/-- The modes with their numbers. -/
def modeOptions : String :=
  ", ".intercalate (PlayMode.all.map fun m => s!"`{m.index}` " ++ m.label)

/-- The end of a pause by hand. -/
def pauseText : Option Bool → String
  | some true => "⏸️ Reproducción pausada"
  | some false => "▶️ Reproducción reanudada"
  | none => "ℹ️ No hay nada sonando"

/-- What is posted once playback has answered; the current track has played for so many
seconds. -/
def answerReply (elapsed : Nat) (command : Command) : Answer → Reply
  | .outcome (.ok outcome) => .text outcome.describe
  | .toggled (.ok paused) => .text (pauseText paused)
  | .mode chosen =>
    match command with
    | .mode none => .text ("🔁 Modo actual: " ++ chosen.label ++ " (" ++ modeOptions ++ ")")
    | _ => .text ("🔁 Modo de reproducción: " ++ chosen.label)
  | .checked (.ok ()) =>
    match command with
    | .move i j => .text s!"↕️ Posiciones {i + 1} y {j + 1} intercambiadas"
    | _ => .nothing
  | .removed (.ok track) => .text ("🗑️ Quitada de la cola: " ++ track.fullName)
  | .status s => .card (Embed.status s elapsed)
  | .done =>
    match command with
    | .shuffle => .text "🔀 Cola mezclada"
    | .clear => .text "🧹 Cola limpiada"
    | _ => .nothing
  | .outcome (.error e) =>
    match command with
    | .play (some _) _ => .nothing
    | _ => .text (failureText e)
  | .toggled (.error e) | .checked (.error e) | .removed (.error e) => .text (failureText e)
  | .item _ | .count _ | .snapshot _ => .nothing

/-- The name of a saved playlist that a command is about. -/
def listName : Command → String
  | .exportList name => name
  | .importList name _ => name
  | _ => ""

/-- The phone that a command is about. -/
def phone : Command → String
  | .loginSms phone _ => phone
  | _ => ""

/-- What is posted once a command has ended.  Commands begin with a sign, and the current
track has played for so many seconds. -/
def reply (sign : String) (elapsed : Nat) (command : Command) : Except Error Completion → Reply
  | .error e => .text (failureText e)
  | .ok (.answered answer) => answerReply elapsed command answer
  | .ok (.alreadyQueued index) =>
    .text s!"ℹ️ Esa canción ya está en la cola (posición {index + 1})"
  | .ok (.saved count) =>
    .text ("💾 Lista `" ++ command.listName ++ s!"` guardada ({count} canciones)")
  | .ok (.loaded count) =>
    .text ("📂 Lista `" ++ command.listName ++ s!"` cargada ({count} canciones)")
  | .ok (.listed names) =>
    if names.isEmpty then .text "📂 No hay listas guardadas"
    else .text ("📂 Listas guardadas: " ++ ", ".intercalate names)
  | .ok (.playlist name count) =>
    if count = 0 then .text ("⚠️ La playlist " ++ name ++ " no tiene canciones")
    else .text ("📂 Playlist **" ++ name ++ s!"** agregada ({count} canciones)")
  | .ok .loggedIn =>
    match command with
    | .loginQr => .text "✅ Sesión iniciada con QR"
    | _ => .text "✅ Sesión iniciada por SMS"
  | .ok .codeSent =>
    .text ("📨 Código enviado; responde con `" ++ sign ++ "login sms " ++ command.phone
      ++ " <código>`")
  | .ok .connected => .text "🔊 Conectado al canal de voz"
  | .ok .disconnected => .text "👋 Desconectado del canal de voz"
  | .ok .helped => .card (Embed.help sign)

end Command

end Jukebox
