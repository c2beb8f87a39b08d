import Jukebox.Playback.State

/-!
# The stages of an operation

Many operations run at once.  Each of them runs from one place where it has to wait to the
next: for the lock of the state, for the gate that admits one start at a time, or for an
answer of the resolver or the player.  A stage is such a place, with all that the operation
remembers.
-/

namespace Jukebox

/-- A request to the controller. -/
inductive Request where
  | playNext
  | play
  | playTrack (track : Track) (offset : Option Span)
  | enqueue (track : Track)
  | previous
  | stop (bySystem : Bool)
  /-- The player reports the natural end of a track. -/
  | ended (serial : Nat)
  /-- The player reports that a track broke off. -/
  | failed (serial : Nat) (reason : String)
  | togglePause
  | presence (event : PresenceEvent) (roster : Roster)
  /-- The bot has lost its voice channel. -/
  | detach
  | setMode (mode : PlayMode)
  | mode
  | exchange (i j : Nat)
  | remove (index : Nat)
  | shuffle
  | clear
  | item (index : Nat)
  | length
  | snapshot
  | restore (snapshot : Snapshot) (how : RestoreMode)
  | setPlaylist (playlist : PlaylistMeta) (tracks : List Track)
  | addPlaylist (tracks : List Track)
  | status (limit : Nat)
deriving Repr, Inhabited

/-- What is told of the queue. -/
structure QueueStatus where
  current : Option PlaybackRecord
  mode : ModeState
  length : Nat
  upcoming : List Track
  playlist : Option PlaylistMeta
deriving DecidableEq, Repr

/-- What a request leads to. -/
inductive Answer where
  | outcome (result : Except Error PlayOutcome)
  /-- Whether the track rests now; nothing where none is playing. -/
  | toggled (result : Except Error (Option Bool))
  | checked (result : Except Error Unit)
  | removed (result : Except Error Track)
  | mode (mode : PlayMode)
  | item (track : Option Track)
  | count (n : Nat)
  | snapshot (snapshot : Snapshot)
  | status (status : QueueStatus)
  | done

/-- A cascade with the number of attempts it may make, the attempt it has come to, and the
failures so far. -/
structure Search where
  cascade : Cascade
  budget : Nat
  attempt : Nat
  reporter : FailureReporter
deriving DecidableEq, Repr

/-- On whose behalf a track is started. -/
inductive Purpose where
  /-- A cascade took the track from the queue of this generation. -/
  | search (search : Search) (generation : Nat)
  /-- Somebody asked for this very track. -/
  | request (cascade : Cascade)
  /-- The track was played before, and so many were tried with it. -/
  | goBack (cascade : Cascade) (attempts : Nat)
deriving DecidableEq, Repr

namespace Purpose

/-- The cascade that the start belongs to. -/
def cascade : Purpose → Cascade
  | .search s _ => s.cascade
  | .request cascade => cascade
  | .goBack cascade _ => cascade

end Purpose

/-- A track that is being started. -/
structure Launch where
  track : Track
  offset : Option Span
  retries : Nat
  purpose : Purpose
deriving DecidableEq, Repr

namespace Launch

/-- The token of the cascade that the start belongs to. -/
def token (l : Launch) : Nat := l.purpose.cascade.token

/-- A track that is played as it stands. -/
def direct? (l : Launch) : Option ResolvedTrack :=
  l.track.directKey?.map fun link => ⟨l.track, link⟩

end Launch

/-- A place where an operation waits. -/
inductive Stage where
  /-- For the lock, to begin. -/
  | begin (request : Request)
  /-- For the lock, to see how many attempts a cascade may make. -/
  | measure (cascade : Cascade)
  /-- For the lock, to take the next track. -/
  | take (search : Search)
  /-- For nothing: a failure was told, and the next attempt is due. -/
  | reported (search : Search)
  /-- For the lock, to give a track back to the queue. -/
  | giveBack (cascade : Cascade) (track : Track) (generation : Nat)
  /-- For the lock, to end the attempts of a cascade. -/
  | settle (cascade : Cascade) (outcome : PlayOutcome)
  /-- For the lock, to end a cascade for good; `report` is told afterwards. -/
  | close (cascade : Cascade) (result : Except Error PlayOutcome) (report : Option String)
  /-- For the lock, to take back the track that was played last. -/
  | takeBack (cascade : Cascade) (attempts : Nat)
  /-- For the lock, to give a track back to the history. -/
  | putBack (cascade : Cascade) (track : Track)
  /-- For nothing: about to ask what the track plays from. -/
  | ask (launch : Launch)
  /-- For the resolver. -/
  | resolving (launch : Launch)
  /-- For the gate. -/
  | admission (launch : Launch) (resolved : ResolvedTrack)
  /-- For the lock, inside the gate, to make a new record. -/
  | install (launch : Launch) (resolved : ResolvedTrack) (serial : Nat)
  /-- For the player to start, inside the gate. -/
  | starting (launch : Launch) (resolved : ResolvedTrack) (displaced : Option PlaybackRecord)
      (paused : Bool)
  /-- For the player to rest, inside the gate. -/
  | pausing (launch : Launch) (resolved : ResolvedTrack) (displaced : Option PlaybackRecord)
  /-- For the lock, inside the gate, to bring back the record that was displaced. -/
  | rollBack (launch : Launch) (displaced : Option PlaybackRecord) (error : Error)
  /-- For the lock, inside the gate, to end a start that went well. -/
  | commit (launch : Launch) (resolved : ResolvedTrack) (displaced : Option PlaybackRecord)
  /-- For the lock, to take the token away from whatever is looking for a track. -/
  | cancelPending
  /-- For the gate, to stop. -/
  | stopAdmission (detaching : Bool)
  /-- For the lock, inside the gate, to retire the record. -/
  | retire (detaching : Bool)
  /-- For the player to stop, inside the gate. -/
  | halting (detaching : Bool)
  /-- For the player to go on, holding the lock. -/
  | resuming
  /-- For the player to rest or go on by hand, holding the lock. -/
  | toggling (paused : Bool)
  /-- For the player to rest or go on for the listeners, holding the lock. -/
  | adjusting (paused : Bool)
  /-- For nothing: the operation is over. -/
  | finished (answer : Answer)

/-- What a stage waits for. -/
inductive Need where
  | lock | gate | nothing | resolver | player | over
deriving DecidableEq, Repr

namespace Stage

/-- What a stage waits for. -/
def need : Stage → Need
  | .begin _ | .measure _ | .take _ | .giveBack _ _ _ | .settle _ _ | .close _ _ _
  | .takeBack _ _ | .putBack _ _ | .install _ _ _ | .rollBack _ _ _ | .commit _ _ _
  | .cancelPending | .retire _ => .lock
  | .admission _ _ | .stopAdmission _ => .gate
  | .ask _ | .reported _ => .nothing
  | .resolving _ => .resolver
  | .starting _ _ _ _ | .pausing _ _ _ | .halting _ | .resuming | .toggling _
  | .adjusting _ => .player
  | .finished _ => .over

/-- The token whose loss interrupts the stage. -/
def token? : Stage → Option Nat
  | .ask launch => some launch.token
  | .resolving launch => some launch.token
  | _ => none

end Stage

end Jukebox
