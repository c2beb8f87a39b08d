/-!
# Who is listening

The bot keeps track of the voice channel it is in and of the listeners there.  It learns of
arrivals, departures and moves one at a time; when it moves itself, it counts anew from the
roster of who is where.  With automatic pause the music rests exactly while nobody listens.
-/

namespace Jukebox

/-- A change of voice channel. -/
inductive PresenceEvent where
  | entered (client channel : Nat)
  | left (client channel : Nat)
  | moved (client target : Nat)
deriving DecidableEq, Repr, Inhabited

namespace PresenceEvent

/-- The event that a change from one voice channel to another stands for.  The bot's own
arrival is always a move. -/
def ofChange? (client self : Nat) : Option Nat → Option Nat → Option PresenceEvent
  | none, none => none
  | some old, none => some (.left client old)
  | none, some new => if client = self then some (.moved client new) else some (.entered client new)
  | some old, some new => if old = new then none else some (.moved client new)

end PresenceEvent

/-- Which listener is in which voice channel. -/
abbrev Roster := List (Nat × Nat)

namespace Roster

/-- The listeners in a channel. -/
def members (roster : Roster) (channel : Nat) : List Nat :=
  (roster.filter fun entry => entry.2 == channel).map Prod.fst

end Roster

/-- The bot's channel and the listeners in it. -/
structure Presence where
  self : Nat
  autoPause : Bool
  ownChannel : Option Nat
  members : List Nat
deriving DecidableEq, Repr, Inhabited

namespace Presence

/-- In no channel, and nobody there. -/
def start (self : Nat) (autoPause : Bool) : Presence := ⟨self, autoPause, none, []⟩

/-- The listeners with one more. -/
def join (p : Presence) (client : Nat) : Presence :=
  { p with members := p.members.insert client }

/-- The listeners without one. -/
def leave (p : Presence) (client : Nat) : Presence :=
  { p with members := p.members.filter (· != client) }

/-- The bot is in another channel, and its listeners are those of the roster. -/
def rebuild (p : Presence) (target : Nat) (roster : Roster) : Presence :=
  { p with
    ownChannel := some target
    members := ((roster.members target).filter (· != p.self)).eraseDups }

/-- Whether the music should rest; nothing is decided without automatic pause. -/
def decision (p : Presence) : Option Bool :=
  if p.autoPause then some p.members.isEmpty else none

/-- The music should rest because the bot is in a channel where nobody listens. -/
def silenced (p : Presence) : Bool :=
  p.ownChannel.isSome && p.decision == some true

/-- Take in an event.  The bot's own arrivals and departures are left to `rebuild` and
`reset`, and lead to no decision. -/
def apply (p : Presence) (event : PresenceEvent) (roster : Roster) : Presence × Option Bool :=
  match event with
  | .entered client channel =>
    if client = p.self then (p, none)
    else
      let p := if some channel = p.ownChannel then p.join client else p
      (p, p.decision)
  | .left client channel =>
    if client = p.self then (p, none)
    else
      let p := if some channel = p.ownChannel then p.leave client else p
      (p, p.decision)
  | .moved client target =>
    let p :=
      if client = p.self then p.rebuild target roster
      else if some target = p.ownChannel then p.join client
      else p.leave client
    (p, p.decision)

/-- The bot is in no channel any more. -/
def reset (p : Presence) : Presence :=
  { p with ownChannel := none, members := [] }

/-- Take in that a client went from one voice channel to another, where the roster tells who
is where afterwards.  When the bot itself goes away all is forgotten. -/
def observe (p : Presence) (client : Nat) (old new : Option Nat) (roster : Roster) : Presence :=
  if client = p.self ∧ new = none then p.reset
  else
    match PresenceEvent.ofChange? client p.self old new with
    | some event => (p.apply event roster).1
    | none => p

end Presence

end Jukebox
