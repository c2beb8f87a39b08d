import Jukebox.Playback.System

/-!
# Operations that take turns

One fair order of the steps of a system.  An operation runs on until it has to wait; then
comes the one that was woken first.  The lock and the gate are handed over in the order in
which they were asked for.  A call to the resolver or the player may be held at a barrier
until the barrier gets a permit.
-/

namespace Jukebox

/-- The answer to a call, and the barrier that the call has to pass before. -/
structure Response where
  barrier : Option String
  signal : Signal

/-- A call that waits at a barrier. -/
structure HeldCall where
  op : Nat
  barrier : String
  signal : Signal

/-- A system whose operations take turns. -/
structure Turns where
  system : System
  /-- Operations that may go on, the one woken first at the head. -/
  ready : List (Nat × Signal)
  /-- Who waits for the lock. -/
  lockQueue : List Nat
  /-- Who waits for the gate. -/
  gateQueue : List Nat
  held : List HeldCall
  /-- The barrier of each permit that has not been used. -/
  permits : List String

namespace Stage

/-- The most tracks that an operation may still put into the queue. -/
def carried : Stage → Nat
  | .begin (.setPlaylist _ tracks) => tracks.length
  | .begin (.addPlaylist tracks) => tracks.length
  | .begin (.restore snapshot _) => snapshot.tracks.length
  | _ => 2

/-- The attempts that were granted to a cascade. -/
def budget : Stage → Nat
  | .take search | .reported search => search.budget
  | .ask l | .resolving l | .admission l _ | .install l _ _ | .starting l _ _ _ | .pausing l _ _
  | .rollBack l _ _ | .commit l _ _ =>
    match l.purpose with
    | .search s _ => s.budget
    | _ => 0
  | _ => 0

end Stage

namespace Turns

/-- A controller on which nothing runs. -/
def start (controller : Controller) : Turns := ⟨.start controller, [], [], [], [], []⟩

/-- An operation is among those that may go on. -/
def isReady (t : Turns) (op : Nat) : Bool := t.ready.any (·.1 == op)

/-- An operation may go on, after all that already may. -/
def wake (t : Turns) (op : Nat) (signal : Signal) : Turns :=
  if t.isReady op then t else { t with ready := t.ready ++ [(op, signal)] }

/-- An operation goes on at once. -/
def goOn (t : Turns) (op : Nat) (signal : Signal) : Turns :=
  { t with ready := (op, signal) :: t.ready }

/-- Wake the operations whose token is gone while the resolver is looking for their track. -/
def wakeCancelled (t : Turns) : Turns :=
  t.system.inFlight.foldl
    (fun t (op, stage) =>
      match stage with
      | .resolving l =>
        if t.system.controller.isCancelled l.token && !t.isReady op then
          { t.wake op .cancelled with held := t.held.filter (·.op != op) }
        else t
      | _ => t)
    t

/-- Wake whoever is first in the queue for a lock or a gate that is free. -/
def wakeNext (t : Turns) : Turns :=
  let t := match t.system.controller.lockedBy, t.lockQueue with
    | none, op :: _ => t.wake op .go
    | _, _ => t
  match t.system.controller.gateHeldBy, t.gateQueue with
  | none, op :: _ => t.wake op .go
  | _, _ => t

/-- A call is answered, or held at its barrier. -/
def call (t : Turns) (op : Nat) (response : Response) : Turns :=
  match response.barrier with
  | none => t.goOn op response.signal
  | some barrier =>
    if t.permits.contains barrier then
      { t with permits := t.permits.erase barrier }.goOn op response.signal
    else { t with held := t.held ++ [⟨op, barrier, response.signal⟩] }

/-- An operation that came to a stage goes on at once or waits.  `respond` answers the last
of the events so far. -/
def place (respond : List PlaybackEvent → Response) (t : Turns) (op : Nat) (stage : Stage) :
    Turns :=
  match stage.need with
  | .lock =>
    if t.system.controller.lockedBy.isNone && t.lockQueue.isEmpty then t.goOn op .go
    else { t with lockQueue := t.lockQueue ++ [op] }
  | .gate =>
    if t.system.controller.gateHeldBy.isNone && t.gateQueue.isEmpty then t.goOn op .go
    else { t with gateQueue := t.gateQueue ++ [op] }
  | .nothing =>
    match stage.token? with
    | some token =>
      t.goOn op (if t.system.controller.isCancelled token then .cancelled else .go)
    | none => t.goOn op .go
  | .resolver | .player => t.call op (respond t.system.events)
  | .over => t

/-- The operation at the head takes one step. -/
def turn (respond : List PlaybackEvent → Response) (t : Turns) : Turns :=
  match t.ready with
  | [] => t
  | (op, signal) :: ready =>
    let t := { t with
      ready
      lockQueue := t.lockQueue.filter (· != op)
      gateQueue := t.gateQueue.filter (· != op) }
    match t.system.advance? op signal with
    | none => t
    | some system =>
      let t := { t with system }.wakeCancelled.wakeNext
      match system.stage? op with
      | some stage => place respond t op stage
      | none => t

/-- So many turns, or fewer if nothing may go on. -/
def turns (respond : List PlaybackEvent → Response) : Nat → Turns → Turns
  | 0, t => t
  | n + 1, t => if t.ready.isEmpty then t else turns respond n (t.turn respond)

/-- At most so many turns follow before every operation waits: each has a few stages of its
own and a few for every track it may try. -/
def bound (t : Turns) : Nat :=
  let tracks := t.system.inFlight.foldr
    (fun (_, stage) tracks => stage.carried + stage.budget + tracks)
    (t.system.controller.state.queue.length + Controller.maxPreviousAttempts)
  t.system.inFlight.length * (16 + 8 * tracks)

/-- Take turns until every operation waits or has ended. -/
def settle (respond : List PlaybackEvent → Response) (t : Turns) : Turns :=
  turns respond t.bound t

/-- A request comes in, and everything runs until it waits. -/
def submit (respond : List PlaybackEvent → Response) (t : Turns) (request : Request) : Turns :=
  let op := t.system.fresh
  settle respond (place respond { t with system := t.system.arrive request } op (.begin request))

/-- A barrier gets one permit, and everything runs until it waits. -/
def release (respond : List PlaybackEvent → Response) (t : Turns) (barrier : String) : Turns :=
  match t.held.find? (·.barrier == barrier) with
  | some call =>
    let t := { t with held := t.held.filter (·.op != call.op) }
    settle respond (t.wake call.op call.signal)
  | none => { t with permits := t.permits ++ [barrier] }

end Turns

end Jukebox
