import Jukebox.Error

/-!
# The environment

The variables that the program takes from its surroundings: the token, which has to be set,
and the path of the settings.
-/

namespace Jukebox

/-- What the surroundings give to the program. -/
structure Environment where
  token : String
  configPath : String
deriving DecidableEq, Repr

namespace Environment

/-- Where the settings are if nothing else is said. -/
def standardPath : String := "config/bot.yml"

/-- The environment for two variables, each of which may be unset. -/
def read (token path : Option String) : Except Error Environment :=
  match token with
  | some token => .ok ⟨token, path.getD standardPath⟩
  | none => .error (.other "DISCORD_TOKEN no definido")

end Environment

end Jukebox
