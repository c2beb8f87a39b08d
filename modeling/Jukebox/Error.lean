/-!
# What can go wrong

The causes of failure, and the one place where they are put into words.
-/

namespace Jukebox

/-- A cause of failure. -/
inductive Error where
  /-- There is nothing left to play. -/
  | emptyQueue
  /-- A track cannot be turned into something that plays. -/
  | resolution (reason : String)
  /-- A place that the queue does not have, counted from zero. -/
  | outOfRange (index : Nat) (length : Nat)
  /-- No track was played before. -/
  | noPreviousTrack
  /-- Every track that was tried failed. -/
  | exhaustedRetries (attempts : Nat)
  /-- A setting that has no meaning. -/
  | configuration (reason : String)
  /-- A login that nobody confirmed in time. -/
  | loginTimeout (attempts : Nat)
  /-- A login that was refused. -/
  | login (reason : String)
  /-- The player refused a track. -/
  | player (reason : String)
  /-- Something that was asked for is not there. -/
  | notFound (what : String)
  /-- A saved playlist cannot be read or written. -/
  | storage (reason : String)
  /-- Anything else. -/
  | other (reason : String)
deriving DecidableEq, Repr, Inhabited

namespace Error

/-- The words for a cause of failure. -/
def message : Error → String
  | .emptyQueue => "La cola está vacía"
  | .resolution reason => "No se pudo resolver la canción: " ++ reason
  | .outOfRange index length =>
    s!"Posición fuera de rango: {index} (la cola tiene {length} canciones)"
  | .noPreviousTrack => "No hay canción anterior"
  | .exhaustedRetries attempts =>
    s!"Fallaron demasiadas canciones seguidas ({attempts} intentos)"
  | .configuration reason => "Configuración inválida: " ++ reason
  | .loginTimeout attempts => s!"El inicio de sesión expiró tras {attempts} intentos"
  | .login reason => "Inicio de sesión fallido: " ++ reason
  | .player reason => "El reproductor no pudo iniciar la canción: " ++ reason
  | .notFound what => "No se encontró: " ++ what
  | .storage reason => "Error de almacenamiento: " ++ reason
  | .other reason => reason

end Error

end Jukebox
