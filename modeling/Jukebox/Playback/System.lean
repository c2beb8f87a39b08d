import Jukebox.Playback.Step

/-!
# Operations in flight

Requests come at any time, and of all operations in flight any one may take the next step
that its stage allows.  A system is the controller with these operations and with the log
of what has happened; `System.Step` is one step of it, and `System.Reaches` any number.
-/

namespace Jukebox

/-- What the log of a system holds. -/
inductive LogEntry where
  /-- An operation made this happen outside. -/
  | event (op : Nat) (event : PlaybackEvent)
  /-- An operation has ended. -/
  | answered (op : Nat) (answer : Answer)

namespace LogEntry

/-- What happened outside, if anything did. -/
def event? : LogEntry → Option PlaybackEvent
  | .event _ e => some e
  | .answered _ _ => none

/-- The answer of an operation, if it is this entry. -/
def answerOf? (op : Nat) : LogEntry → Option Answer
  | .answered op' answer => if op = op' then some answer else none
  | .event _ _ => none

end LogEntry

/-- The controller, the operations in flight, and what has happened. -/
structure System where
  controller : Controller
  /-- Each operation with its stage, in order of arrival. -/
  inFlight : List (Nat × Stage)
  /-- The number of the next operation. -/
  fresh : Nat
  /-- The oldest entry comes first. -/
  log : List LogEntry

namespace System

/-- A controller on which nothing runs. -/
def start (controller : Controller) : System := ⟨controller, [], 0, []⟩

/-- Where an operation stands; `none` if it is not in flight. -/
def stage? (s : System) (op : Nat) : Option Stage := s.inFlight.lookup op

/-- The answer of an operation that has ended. -/
def answer? (s : System) (op : Nat) : Option Answer := s.log.findSome? (·.answerOf? op)

/-- All that happened outside. -/
def events (s : System) : List PlaybackEvent := s.log.filterMap LogEntry.event?

/-- A request comes in. -/
def arrive (s : System) (request : Request) : System :=
  { s with inFlight := s.inFlight ++ [(s.fresh, .begin request)], fresh := s.fresh + 1 }

/-- An operation comes to a stage; one that has ended leaves. -/
def moved (s : System) (op : Nat) : Stage → System
  | .finished answer =>
    { s with
      inFlight := s.inFlight.filter (·.1 != op)
      log := s.log ++ [.answered op answer] }
  | stage =>
    { s with inFlight := s.inFlight.map fun (op', old) => (op', if op' = op then stage else old) }

/-- A step of one operation on a signal. -/
def advance? (s : System) (op : Nat) (signal : Signal) : Option System := do
  let (controller, stage, told) ← s.controller.step? op (← s.stage? op) signal
  some ({ s with controller, log := s.log ++ told.map (LogEntry.event op) }.moved op stage)

/-- What may happen next: a request comes in, or an operation takes a step. -/
inductive Step : System → System → Prop
  | arrive (s : System) (request : Request) : Step s (s.arrive request)
  | advance {s t : System} (op : Nat) (signal : Signal) (h : s.advance? op signal = some t) :
      Step s t

/-- Any number of steps. -/
inductive Reaches (s : System) : System → Prop
  | refl : Reaches s s
  | tail {t u : System} (h : Reaches s t) (step : Step t u) : Reaches s u

/-- Nothing runs. -/
def Quiet (s : System) : Prop := s.inFlight = []

end System

end Jukebox
