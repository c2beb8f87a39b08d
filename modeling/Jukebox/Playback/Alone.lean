import Jukebox.Playback.Turns

/-!
# Operations that run alone

An operation on which no other intrudes goes from its request straight to its answer.
`Controller.Completes` says where it can come with any answers of the resolver and the
player; `Controller.run` follows it with given ones.  Such an operation is a walk of the
system from one quiet state to another (`System.reaches_of_completes`).
-/

namespace Jukebox

/-- The end of an operation that ran alone, with all that happened outside meanwhile. -/
structure PlaybackRun where
  controller : Controller
  events : List PlaybackEvent
  answer : Answer

/-- What answers the calls of operations.  It sees all that happened so far, the call
included. -/
structure Collaborators where
  resolve : List PlaybackEvent → Track → Except Error (Option ResolvedTrack)
  play : List PlaybackEvent → Except Error Unit

namespace Collaborators

/-- The signal on which an operation that runs alone leaves a stage. -/
def signal (w : Collaborators) (events : List PlaybackEvent) (stage : Stage) : Signal :=
  match stage.need, stage with
  | .resolver, .resolving l => .resolved (w.resolve events l.track)
  | .player, _ => .played (w.play events)
  | _, _ => .go

end Collaborators

namespace Controller

/-- Nobody holds the lock and nobody is inside the gate. -/
def IsFree (c : Controller) : Prop := c.lockedBy = none ∧ c.gateHeldBy = none

/-- From a stage an operation that runs alone can come to this end. -/
inductive Completes (op : Nat) : Controller → Stage → PlaybackRun → Prop
  | finished (c : Controller) (answer : Answer) :
      Completes op c (.finished answer) ⟨c, [], answer⟩
  | step {c d : Controller} {stage next : Stage} {told : List PlaybackEvent}
      {run : PlaybackRun} (signal : Signal) (h : c.step? op stage signal = some (d, next, told))
      (rest : Completes op d next run) :
      Completes op c stage { run with events := told ++ run.events }

/-- Requests that are served one after the other, each with its end. -/
inductive Serves : Controller → List (Request × PlaybackRun) → Controller → Prop
  | nil (c : Controller) : Serves c [] c
  | cons {c d : Controller} {request : Request} {run : PlaybackRun}
      {more : List (Request × PlaybackRun)} (op : Nat)
      (h : Completes op c (.begin request) run) (rest : Serves run.controller more d) :
      Serves c ((request, run) :: more) d

/-- Run on from a stage for at most so many steps. -/
def runFor (w : Collaborators) (op : Nat) :
    Nat → Controller → List PlaybackEvent → Stage → Option PlaybackRun
  | _, c, events, .finished answer => some ⟨c, events, answer⟩
  | 0, _, _, _ => none
  | fuel + 1, c, events, stage =>
    match c.step? op stage (w.signal events stage) with
    | none => none
    | some (d, next, told) => runFor w op fuel d (events ++ told) next

/-- At most so many steps lead from a request to its answer: some of its own, and a few for
every track that may be tried. -/
def stepBound (c : Controller) (request : Request) : Nat :=
  16 + 8 * (c.state.queue.length + (Stage.begin request).carried + maxPreviousAttempts)

/-- Serve a request while nothing else runs. -/
def run (w : Collaborators) (c : Controller) (request : Request) : Option PlaybackRun :=
  runFor w 0 (c.stepBound request) c [] (.begin request)

theorem completes_of_runFor {w : Collaborators} {op fuel : Nat} {c : Controller}
    {before : List PlaybackEvent} {stage : Stage} {run : PlaybackRun}
    (h : runFor w op fuel c before stage = some run) :
    ∃ told, run.events = before ++ told ∧
      Completes op c stage ⟨run.controller, told, run.answer⟩ := by
  fun_induction runFor w op fuel c before stage with
  | case1 _ c before answer =>
    cases h
    exact ⟨[], by simp, .finished c answer⟩
  | case2 => simp at h
  | case3 => simp at h
  | case4 c before stage fuel _ d next told hstep ih =>
    obtain ⟨more, hevents, hrest⟩ := ih h
    exact ⟨told ++ more, by simp [hevents], .step _ hstep hrest⟩

/-- A run with given answers is one of the possible ones. -/
theorem completes_of_run {w : Collaborators} {c : Controller} {request : Request}
    {run : PlaybackRun} (h : c.run w request = some run) :
    Completes 0 c (.begin request) run := by
  obtain ⟨told, hevents, hrest⟩ := completes_of_runFor h
  obtain ⟨last, events, answer⟩ := run
  obtain rfl : events = told := by simpa using hevents
  exact hrest

end Controller

namespace System

theorem Reaches.head {s t u : System} (step : Step s t) (h : Reaches t u) : Reaches s u := by
  induction h with
  | refl => exact .tail .refl step
  | tail _ last ih => exact .tail ih last

/-- An operation that is the only one in flight comes to its end by steps of the system. -/
theorem reaches_of_completes {op : Nat} {c : Controller} {stage : Stage} {run : PlaybackRun}
    (h : c.Completes op stage run) (fresh : Nat) (log : List LogEntry)
    (hstage : ∀ answer, stage ≠ .finished answer) :
    Reaches ⟨c, [(op, stage)], fresh, log⟩
      ⟨run.controller, [], fresh,
        log ++ run.events.map (LogEntry.event op) ++ [.answered op run.answer]⟩ := by
  induction h generalizing log with
  | finished c answer => exact absurd rfl (hstage answer)
  | @step c d stage next told run signal hstep rest ih =>
    have hadvance : (⟨c, [(op, stage)], fresh, log⟩ : System).advance? op signal =
        some ((⟨d, [(op, stage)], fresh, log ++ told.map (LogEntry.event op)⟩ : System).moved op
          next) := by
      simp [advance?, stage?, hstep]
    refine .head (.advance op signal hadvance) ?_
    cases hnext : next with
    | finished answer =>
      subst hnext
      cases rest with
      | finished =>
        have : (⟨d, [(op, stage)], fresh, log ++ told.map (LogEntry.event op)⟩ : System).moved
            op (.finished answer) =
            ⟨d, [], fresh, log ++ told.map (LogEntry.event op) ++ [.answered op answer]⟩ := by
          simp [moved]
        rw [this]
        simpa using Reaches.refl
      | step signal hstuck _ => simp [Controller.step?, Stage.need] at hstuck
    | _ =>
      subst hnext
      simpa [moved] using
        ih (log ++ told.map (LogEntry.event op)) (fun _ h => by simp at h)

end System

end Jukebox
