import Jukebox.Playback.Basic

/-!
# The state of playback

What one lock guards: the queue, the mode, who listens, the record of the track that is
playing, and the cascade that is looking for the next one.  Each function here is one
critical section.
-/

namespace Jukebox

/-- What the lock guards. -/
structure PlaybackState where
  queue : Queue
  mode : ModeState
  presence : Presence
  record : Option PlaybackRecord
  playlist : Option PlaylistMeta
  words : RandomWords
  /-- The cascade that has not ended yet. -/
  cascade : Option Nat
  /-- The number of the latest cascade. -/
  cascadeCount : Nat
  /-- Grows whenever the queue is replaced as a whole. -/
  generation : Nat
deriving DecidableEq, Repr

namespace PlaybackState

/-- Nothing plays and nothing is about to. -/
def start (mode : PlayMode) (self : Nat) (autoPause : Bool) (words : RandomWords) :
    PlaybackState where
  queue := .empty
  mode := ⟨mode, 0⟩
  presence := .start self autoPause
  record := none
  playlist := none
  words
  cascade := none
  cascadeCount := 0
  generation := 0

/-- Nothing plays and no cascade is looking for a track. -/
def isIdle (s : PlaybackState) : Bool := s.record.isNone && s.cascade.isNone

/-- The serial of the current track. -/
def serial? (s : PlaybackState) : Option Nat := s.record.map PlaybackRecord.serial

/-- The record goes to the history. -/
def retire (s : PlaybackState) : PlaybackState :=
  match s.record with
  | some record => { s with record := none, queue := s.queue.remember record.track }
  | none => s

/-- A cascade is over.  If the end of a track opened it and that track is still the
current one, none has started since, and the track goes to the history. -/
def closeCascade (s : PlaybackState) (cascade : Cascade) : PlaybackState :=
  let s := if s.cascade = some cascade.id then { s with cascade := none } else s
  if cascade.ended.isSome && s.serial? == cascade.ended then s.retire else s

/-- Take the next track out of the queue. -/
def takeNext? (s : PlaybackState) : Option (Track × PlaybackState) :=
  (s.queue.next? s.mode s.words).map fun taken =>
    (taken.track, { s with queue := taken.queue, mode := taken.state, words := taken.words })

/-- A track that was taken comes back to the head, unless the queue was replaced since. -/
def giveBack (s : PlaybackState) (track : Track) (generation : Nat) : PlaybackState :=
  if s.generation = generation then { s with queue := s.queue.addFirst track } else s

/-- The record of a track that is about to start; it rests from the beginning where nobody
listens. -/
def newRecord (s : PlaybackState) (r : ResolvedTrack) (retries serial : Nat) :
    PlaybackRecord :=
  ⟨r.track, r.streamUrl, s.presence.silenced, retries, serial⟩

/-- What is told of a track that has just started. -/
def nowPlaying (s : PlaybackState) (track : Track) : NowPlaying where
  track
  position := if track.inPlaylist then some (s.mode.playCount, s.queue.length) else none
  mode := s.mode.mode
  playlist := s.playlist

/-- The current track rests, or does not. -/
def setPaused (s : PlaybackState) (paused : Bool) : PlaybackState :=
  { s with record := s.record.map fun record => { record with paused } }

/-- Nothing is to come any more. -/
def clear (s : PlaybackState) : PlaybackState :=
  { s with
    queue := s.queue.clear
    playlist := none
    mode := { s.mode with playCount := 0 }
    generation := s.generation + 1 }

/-- Lay a saved playlist over the queue. -/
def restore (s : PlaybackState) (snapshot : Snapshot) (how : RestoreMode) : PlaybackState :=
  let s := { s with queue := s.queue.restore snapshot.tracks how }
  match how with
  | .append => s
  | .replace =>
    { s with
      playlist := snapshot.playlist
      mode := { s.mode with playCount := 0 }
      generation := s.generation + 1 }

/-- The queue in random order. -/
def shuffle (s : PlaybackState) : PlaybackState :=
  let (queue, words) := s.queue.shuffled s.words
  { s with queue, words }

/-- Put a playlist in place of the queue, in random order if the mode asks for it. -/
def setPlaylist (s : PlaybackState) (playlist : PlaylistMeta) (tracks : List Track) :
    PlaybackState :=
  let s := { s with
    queue := s.queue.restore tracks .replace
    playlist := some playlist
    mode := { s.mode with playCount := 0 }
    generation := s.generation + 1 }
  if s.mode.mode.isRandom then s.shuffle else s

/-- The queue as a saved playlist. -/
def snapshot (s : PlaybackState) : Snapshot := ⟨some s.mode.mode, s.queue.items, s.playlist⟩

end PlaybackState

end Jukebox
