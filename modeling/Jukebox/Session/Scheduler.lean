import Jukebox.Session.Account
import Jukebox.Session.Timer

/-!
# Refreshing on time

Timers that refresh the session of an account while time passes.  Time may jump; then every
timer that is due goes off once.
-/

namespace Jukebox

/-- An account, the second it is, and the timers that refresh its session. -/
structure Scheduler where
  account : Account
  now : Nat
  timers : List Timer

namespace Scheduler

/-- An account without timers. -/
def start (account : Account) : Scheduler := ⟨account, 0, []⟩

variable (malformed : String) (respond : List ApiCall → ApiCall → ApiReply)

/-- Refresh the session once; `calls` are the questions asked before. -/
def tick (s : Scheduler) (calls : List ApiCall) : Scheduler × AccountRun :=
  let run := s.account.run malformed respond calls Account.refresh
  ({ s with account := run.account }, run)

/-- The given timers go off where they are due, one after the other. -/
def ring (s : Scheduler) (calls : List ApiCall) : List Timer → Scheduler × List ApiCall
  | [] => (s, calls)
  | timer :: rest =>
    if timer.isDue s.now then
      let (s, run) := s.tick malformed respond calls
      ring { s with timers := s.timers ++ [timer.wound s.now] } run.calls rest
    else ring { s with timers := s.timers ++ [timer] } calls rest

/-- Let all timers go off that are due. -/
def ringAll (s : Scheduler) (calls : List ApiCall) : Scheduler × List ApiCall :=
  ring malformed respond { s with timers := [] } calls s.timers

/-- Start a timer, which goes off at once; none is started for a session that is never
refreshed. -/
def spawn (s : Scheduler) (calls : List ApiCall) : Bool × Scheduler × List ApiCall :=
  match s.account.session.refreshSeconds? with
  | none => (false, s, calls)
  | some period =>
    (true,
      ringAll malformed respond { s with timers := s.timers ++ [.start s.now period] } calls)

/-- So many seconds pass at once. -/
def wait (s : Scheduler) (calls : List ApiCall) (seconds : Nat) : Scheduler × List ApiCall :=
  ringAll malformed respond { s with now := s.now + seconds } calls

/-- Stop all timers. -/
def cancel (s : Scheduler) : Scheduler := { s with timers := [] }

end Scheduler

end Jukebox
