import Jukebox.Playback.Stage

/-!
# Cards

What is shown of the track that has started, of the queue, and of the commands: a card with
a title and fields.
-/

namespace Jukebox

/-- A field of a card; fields that are `inline` may stand beside each other. -/
structure EmbedField where
  name : String
  value : String
  inline : Bool
deriving DecidableEq, Repr

/-- A card. -/
structure Embed where
  title : Option String
  description : Option String
  url : Option String
  color : Option Nat
  /-- The address of a small picture. -/
  thumbnail : Option String
  footer : Option String
  fields : List EmbedField
  /-- The card tells when it was made. -/
  timestamped : Bool
deriving DecidableEq, Repr

namespace Embed

/-- A color of red, green and blue. -/
def rgb (red green blue : Nat) : Nat := (red * 256 + green) * 256 + blue

/-- The color of what goes well. -/
def successColor : Nat := rgb 67 181 129
/-- The color of what informs. -/
def infoColor : Nat := rgb 52 144 220
/-- The color of music. -/
def musicColor : Nat := rgb 138 43 226

/-- The last line of every card. -/
def standardFooter : String := "🎵 Yun Music Bot"

/-- The count of the lap and the length of the queue. -/
def positionLabel (position : Option (Nat × Nat)) : Option String :=
  position.map fun (count, length) => s!"[{count}/{length}]"

/-- A playlist by its name, or else by its number. -/
def playlistLabel (playlist : PlaylistMeta) : Option String :=
  playlist.name <|> playlist.id.map ("#" ++ ·)

/-- A number of at least two digits. -/
def twoDigits (n : Nat) : String := if n < 10 then "0" ++ toString n else toString n

/-- Seconds as hours, minutes and seconds; hours are left out where there are none. -/
def clock (seconds : Nat) : String :=
  let minutes := seconds % 3600 / 60
  if 3600 ≤ seconds then
    toString (seconds / 3600) ++ ":" ++ twoDigits minutes ++ ":" ++ twoDigits (seconds % 60)
  else toString minutes ++ ":" ++ twoDigits (seconds % 60)

/-- The tracks to come, numbered from one, and how many more there are. -/
def queueLines (upcoming : List Track) (total : Nat) : String :=
  let lines := upcoming.zipIdx.map fun (track, i) => s!"`{i + 1}.` " ++ track.fullName
  let more := if upcoming.length < total then [s!"... y {total - upcoming.length} más"] else []
  "\n".intercalate (lines ++ more)

/-- A text, or another where it is empty. -/
def orElse (text other : String) : String := if text.isEmpty then other else text

/-- The card of a track that has just started. -/
def nowPlaying (now : NowPlaying) (defaultImage : String) : Embed where
  title := some "🎵 Reproduciendo Ahora"
  description := some ("**" ++ now.track.displayName ++ "**")
  url := now.track.detailUrl.filter fun url => !url.isEmpty
  color := some successColor
  thumbnail := some (now.track.image.getD defaultImage)
  footer := some standardFooter
  fields :=
    [⟨"🎤 Artista", orElse now.track.artistLine "Desconocido", true⟩,
      ⟨"🔁 Modo", now.mode.label, true⟩]
    ++ ((positionLabel now.position).map fun label => ⟨"📜 Posición", label, true⟩).toList
    ++ ((now.playlist.bind playlistLabel).map fun label => ⟨"📂 Playlist", label, true⟩).toList
  timestamped := true

/-- The line about the current track, which has played for so many seconds. -/
def currentLine (record : PlaybackRecord) (elapsed : Nat) : String :=
  (if record.paused then "⏸️ " else "") ++ "**" ++ record.track.fullName ++ "**\nEmpezó hace "
    ++ clock elapsed

/-- The card of the queue, where the current track has played for so many seconds. -/
def status (status : QueueStatus) (elapsed : Nat) : Embed where
  title := some "📜 Cola de Reproducción"
  description := none
  url := none
  color := some musicColor
  thumbnail := none
  footer := some standardFooter
  fields :=
    [⟨"🎵 Sonando", (status.current.map fun record => currentLine record elapsed).getD "Nada", false⟩,
      ⟨"🔁 Modo", status.mode.mode.label, true⟩,
      ⟨"📊 Progreso", s!"{status.mode.playCount}/{status.length}", true⟩]
    ++ ((status.playlist.bind playlistLabel).map fun label => ⟨"📂 Playlist", label, true⟩).toList
    ++ [⟨"⏭️ Siguientes", orElse (queueLines status.upcoming status.length) "La cola está vacía",
      false⟩]
  timestamped := true

/-- Lines that each tell of a command. -/
def commandLines (lines : List String) : String := "\n".intercalate (lines.map ("• " ++ ·))

/-- A command in the words of the help. -/
def quoted (sign words : String) : String := "`" ++ sign ++ words ++ "`"

/-- The card of the commands, which begin with a sign. -/
def help (sign : String) : Embed where
  title := some "🎵 Yun Music Bot - Comandos"
  description := none
  url := none
  color := some infoColor
  thumbnail := none
  footer := some standardFooter
  fields := [
    ⟨"🎵 Reproducción", commandLines [
      quoted sign "play [canción] [@inicio] [#fuente]" ++ " - Reproduce o reanuda",
      quoted sign "add <canción>" ++ " - Agrega a la cola",
      quoted sign "next" ++ " / " ++ quoted sign "previous" ++ " - Siguiente o anterior",
      quoted sign "pause" ++ " - Pausa o reanuda",
      quoted sign "stop" ++ " - Detiene la reproducción"], false⟩,
    ⟨"📜 Cola", commandLines [
      quoted sign "ls [n]" ++ " - Muestra la cola",
      quoted sign "mode [0-3]" ++ " - Secuencial, bucle, aleatorio, aleatorio en bucle",
      quoted sign "move <de> <a>" ++ " / " ++ quoted sign "rm <n>" ++ " - Ordena la cola",
      quoted sign "shuffle" ++ " / " ++ quoted sign "clear"], false⟩,
    ⟨"💾 Listas", commandLines [
      quoted sign "export <nombre>" ++ " / " ++ quoted sign "import <nombre> [append]",
      quoted sign "lists [prefijo]" ++ " - Listas guardadas",
      quoted sign "playlist add|set <id o nombre>" ++ " - Playlist del catálogo"], false⟩,
    ⟨"🔐 Sesión y conexión", commandLines [
      quoted sign "login qr" ++ " / " ++ quoted sign "login sms <teléfono> [código]",
      quoted sign "join" ++ " / " ++ quoted sign "leave"], false⟩,
    ⟨"🏷️ Fuentes", "`#l` archivo local, `#n` catálogo, `#u` URL", false⟩]
  timestamped := false

end Embed

end Jukebox
