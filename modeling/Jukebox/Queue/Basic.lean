import Jukebox.Queue.Advance

/-!
# The queue

The tracks to come, no two of them the same, and the tracks that were played, the latest
first.  Adding a track that is already there moves it.  Only the latest fifty played
tracks are remembered.
-/

namespace Jukebox

/-- How a list of tracks is laid over the queue. -/
inductive RestoreMode where
  | replace | append
deriving DecidableEq, Repr, Inhabited

/-- The tracks to come, and the played ones, the latest first. -/
structure Queue where
  items : List Track
  history : List Track
deriving DecidableEq, Repr

namespace Queue

/-- Nothing to come and nothing played. -/
def empty : Queue := ⟨[], []⟩

instance : Inhabited Queue := ⟨empty⟩

/-- How many played tracks are remembered. -/
def historyLimit : Nat := 50

/-- How many tracks are to come. -/
def length (q : Queue) : Nat := q.items.length

/-- Nothing is to come. -/
def isEmpty (q : Queue) : Bool := q.items.isEmpty

/-- `items` with `track` at `place`, or at the end where there is no such place; whatever
is the same track goes away first. -/
def placed (items : List Track) (track : Track) (place : Option Nat) : List Track :=
  let others := items.filter fun item => !item.same track
  match place with
  | some i => if i < others.length then others.insertIdx i track else others ++ [track]
  | none => others ++ [track]

/-- Put a track at a place, or at the end. -/
def add (q : Queue) (track : Track) (place : Option Nat) : Queue :=
  { q with items := placed q.items track place }

/-- Put a track at the head. -/
def addFirst (q : Queue) (track : Track) : Queue := q.add track (some 0)

/-- Put a track at the end. -/
def addLast (q : Queue) (track : Track) : Queue := q.add track none

/-- Put tracks at the end, one after the other. -/
def addAll (q : Queue) (tracks : List Track) : Queue :=
  tracks.foldl addLast q

/-- Take out the track at a place. -/
def remove (q : Queue) (index : Nat) : Except Error (Track × Queue) :=
  match q.items[index]? with
  | some track => .ok (track, { q with items := q.items.eraseIdx index })
  | none => .error (.outOfRange index q.length)

/-- Exchange the tracks at two places. -/
def exchange (q : Queue) (i j : Nat) : Except Error Queue :=
  match q.items[i]?, q.items[j]? with
  | some a, some b => .ok { q with items := (q.items.set i b).set j a }
  | none, _ => .error (.outOfRange i q.length)
  | some _, none => .error (.outOfRange j q.length)

/-- Nothing is to come any more. -/
def clear (q : Queue) : Queue := { q with items := [] }

/-- The tracks to come in random order. -/
def shuffled (q : Queue) (words : RandomWords) : Queue × RandomWords :=
  let (items, words) := shuffle q.items words
  ({ q with items }, words)

/-- Lay a list of tracks over the queue. -/
def restore (q : Queue) (tracks : List Track) : RestoreMode → Queue
  | .replace => q.clear.addAll tracks
  | .append => q.addAll tracks

/-- A track that was taken from the queue, and what it left behind. -/
structure Taken where
  track : Track
  queue : Queue
  state : ModeState
  words : RandomWords

/-- Take the next track; `none` if there is none. -/
def next? (q : Queue) (state : ModeState) (words : RandomWords) : Option Taken :=
  (advance? q.items state words).map fun a =>
    ⟨a.track, { q with items := a.queue }, { state with playCount := a.playCount }, a.words⟩

/-- Take the next track, or fail because there is none.  All tracks leave the queue before it is
known which of them go back, so none would be left where this fails. -/
def next (q : Queue) (state : ModeState) (words : RandomWords) :
    Except Error Track × Queue × ModeState × RandomWords :=
  match advance q.items state words with
  | .ok a =>
    (.ok a.track, { q with items := a.queue }, { state with playCount := a.playCount }, a.words)
  | .error e => (.error e, { q with items := [] }, state, words)

/-- Copy a fuller description over the first entry of the same track; whether it belongs
to a playlist stays as it was. -/
def refresh (q : Queue) (track : Track) : Queue :=
  { q with items := go q.items }
where
  /-- The entries with the first of them renewed. -/
  go : List Track → List Track
    | [] => []
    | item :: rest =>
      if item.same track then { track with inPlaylist := item.inPlaylist } :: rest
      else item :: go rest

/-- The tracks that come first. -/
def peek (q : Queue) (limit : Nat) : List Track := q.items.take limit

/-- The track at a place. -/
def get? (q : Queue) (index : Nat) : Option Track := q.items[index]?

/-- Remember a played track; the oldest beyond the limit is forgotten. -/
def remember (q : Queue) (track : Track) : Queue :=
  { q with history := (track :: q.history).take historyLimit }

/-- Take back the track that was played last. -/
def takeBack? (q : Queue) : Option (Track × Queue) :=
  match q.history with
  | [] => none
  | track :: rest => some (track, { q with history := rest })

end Queue

end Jukebox
