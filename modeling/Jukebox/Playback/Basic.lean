import Jukebox.Playlist.Snapshot
import Jukebox.Presence
import Jukebox.Queue.Basic
import Jukebox.Session.Account
import Jukebox.Span
import Jukebox.Track.Name

/-!
# Playback: what it consists of

The record of the track that is playing, the cascade of attempts that looks for one that
plays, what is asked of the player, and what is told to the chat.
-/

namespace Jukebox

/-- A track that can be played. -/
structure ResolvedTrack where
  track : Track
  streamUrl : String
deriving DecidableEq, Repr, Inhabited

/-- What the player is asked to play. -/
structure PlaybackSource where
  url : String
  source : AudioSource
  offset : Option Span
deriving DecidableEq, Repr, Inhabited

/-- The track that is playing, or about to. -/
structure PlaybackRecord where
  track : Track
  streamUrl : String
  paused : Bool
  /-- How many tracks had failed before this one. -/
  retries : Nat
  /-- The number that the player's signals about this track carry. -/
  serial : Nat
deriving DecidableEq, Repr, Inhabited

/-- What is told of a track that has just started. -/
structure NowPlaying where
  track : Track
  /-- The count of the lap and the length of the queue, for a track of a playlist. -/
  position : Option (Nat × Nat)
  mode : PlayMode
  playlist : Option PlaylistMeta
deriving DecidableEq, Repr, Inhabited

/-- How a request to play can end well. -/
inductive PlayOutcome where
  | started
  | resumed
  | alreadyPlaying
  | queued (position : Nat)
  | stopped
  | queueEmpty
  /-- Every track failed, and the queue is not empty. -/
  | exhausted
  /-- A newer request, or a stop, came in between. -/
  | superseded
deriving DecidableEq, Repr, Inhabited

/-- A cascade: its number, the token that later cascades and stops take away, and the
serial of the track whose end opened it. -/
structure Cascade where
  id : Nat
  token : Nat
  ended : Option Nat
deriving DecidableEq, Repr, Inhabited

/-- What happens outside: a call to the resolver or the player, or a word to the chat. -/
inductive PlaybackEvent where
  | resolve (track : Track) (headers : Headers)
  | start (source : PlaybackSource) (serial : Nat) (volume : Single)
  | setPaused (paused : Bool)
  | stop
  | say (text : String)
  | started (now : NowPlaying)
deriving DecidableEq, Repr

/-- Failures told so far in a cascade, and those kept back. -/
structure FailureReporter where
  limit : Nat
  reported : Nat
  suppressed : Nat
deriving DecidableEq, Repr, Inhabited

namespace FailureReporter

/-- Nothing has failed. -/
def start (limit : Nat) : FailureReporter := ⟨limit, 0, 0⟩

/-- What is told of a track that cannot be played. -/
def failureText (track : Track) (e : Error) : String :=
  "❌ No se pudo reproducir " ++ track.fullName ++ ": " ++ e.message

/-- One more failure; it is told up to the limit. -/
def record (r : FailureReporter) (track : Track) (e : Error) :
    FailureReporter × List PlaybackEvent :=
  if r.reported < r.limit then
    ({ r with reported := r.reported + 1 }, [.say (failureText track e)])
  else ({ r with suppressed := r.suppressed + 1 }, [])

/-- What is told in the end of the failures that were kept back. -/
def summary (r : FailureReporter) : List PlaybackEvent :=
  if 0 < r.suppressed then [.say s!"⚠️ Otras {r.suppressed} canciones también fallaron"] else []

end FailureReporter

end Jukebox
