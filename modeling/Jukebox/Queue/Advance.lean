import Jukebox.Mode
import Jukebox.Queue.Shuffle
import Jukebox.Track.Basic

/-!
# Which track is next

The head of the queue is played next.  In a loop mode it goes back to the end and is
counted; in the random loop the queue is shuffled again as soon as the count reaches its
length, and the count begins anew at one.
-/

namespace Jukebox

/-- A play mode with the count of the lap. -/
structure ModeState where
  mode : PlayMode
  playCount : Nat
deriving DecidableEq, Repr, Inhabited

/-- What remains after a track was taken from the queue. -/
structure Advanced where
  track : Track
  queue : List Track
  playCount : Nat
  reshuffled : Bool
  words : RandomWords

/-- Take the next track from a queue; `none` from an empty one. -/
def advance? (queue : List Track) (state : ModeState) (words : RandomWords) :
    Option Advanced :=
  match queue with
  | [] => none
  | track :: rest =>
    let queue := if state.mode.isLoop then rest ++ [track] else rest
    let playCount := if state.mode.isLoop then state.playCount + 1 else 1
    if state.mode = .randomLoop ∧ queue.length ≤ playCount then
      let (queue, words) := shuffle queue words
      some ⟨track, queue, 1, true, words⟩
    else some ⟨track, queue, playCount, false, words⟩

/-- Take the next track, or fail because there is none. -/
def advance (queue : List Track) (state : ModeState) (words : RandomWords) :
    Except Error Advanced :=
  match advance? queue state words with
  | some advanced => .ok advanced
  | none => .error .emptyQueue

end Jukebox
