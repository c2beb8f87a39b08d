import Jukebox.Mode
import Jukebox.Track.Attributes

/-!
# Commands

What a user can ask for in a message.  Places in the queue are counted from zero here and
from one when they are typed.
-/

namespace Jukebox

/-- What a user asks for. -/
inductive Command where
  /-- Play what a query means, or else go on. -/
  | play (query : Option String) (attributes : PlayAttributes)
  | add (query : String) (attributes : PlayAttributes)
  | next
  | previous
  | stop
  | pause
  /-- Choose a mode, or ask for the present one. -/
  | mode (mode : Option PlayMode)
  | move (i j : Nat)
  | remove (index : Nat)
  | shuffle
  | clear
  /-- Show the queue with so many of its tracks. -/
  | status (limit : Nat)
  | exportList (name : String)
  | importList (name : String) (append : Bool)
  /-- Show the saved playlists whose names begin like this. -/
  | lists (start : Option String)
  | playlist (replace : Bool) (target : String)
  | loginQr
  | loginSms (phone : String) (code : Option String)
  | join
  | leave
  | help
deriving DecidableEq, Repr, Inhabited

/-- A command whose words do not fit. -/
inductive CommandUsage where
  | add | mode | move | remove | status | exportList | importList | playlist | login
deriving DecidableEq, Repr

namespace CommandUsage

/-- How a command is used, behind the sign that commands begin with. -/
def text (sign : String) : CommandUsage → String
  | .add => "Uso: `" ++ sign ++ "add <canción> [@inicio] [#fuente]`"
  | .mode => "Uso: `" ++ sign ++ "mode [0-3]`"
  | .move => "Uso: `" ++ sign ++ "move <de> <a>` (posiciones desde 1)"
  | .remove => "Uso: `" ++ sign ++ "rm <posición>` (desde 1)"
  | .status => "Uso: `" ++ sign ++ "ls [cantidad]`"
  | .exportList => "Uso: `" ++ sign ++ "export <nombre>`"
  | .importList => "Uso: `" ++ sign ++ "import <nombre> [append]`"
  | .playlist => "Uso: `" ++ sign ++ "playlist add|set <id o nombre>`"
  | .login =>
    "Uso: `" ++ sign ++ "login qr` o `" ++ sign ++ "login sms <teléfono> [código]`"

end CommandUsage

namespace Command

/-- How many tracks are shown where no number is given. -/
def standardLimit : Nat := 3

end Command

end Jukebox
