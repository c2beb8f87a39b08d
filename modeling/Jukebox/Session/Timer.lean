/-!
# Timers that refresh the session

A timer goes off at once and then once a period.  After a late alarm the next one comes a
full period later.
-/

namespace Jukebox

/-- A timer, with the second of its next alarm. -/
structure Timer where
  period : Nat
  next : Nat
deriving DecidableEq, Repr, Inhabited

namespace Timer

/-- A timer that goes off at once. -/
def start (now period : Nat) : Timer := ⟨period, now⟩

/-- The timer has to go off. -/
def isDue (timer : Timer) (now : Nat) : Bool := timer.next ≤ now

/-- The timer after it went off. -/
def wound (timer : Timer) (now : Nat) : Timer := { timer with next := now + timer.period }

end Timer

end Jukebox
