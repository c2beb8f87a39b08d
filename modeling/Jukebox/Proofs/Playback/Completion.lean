import Jukebox.Playback.Alone
import Jukebox.Proofs.Playback.Marker
import Jukebox.Proofs.Queue.Lap

/-!
# Operations that run alone come to their end

An operation on which no other intrudes never has to wait: nobody else holds the lock or is inside
the gate, and the resolver and the player answer each call.  What is left of it is counted by
`Stage.stepsLeft`.  A cascade has at most eight steps for every attempt that it may still make,
and each of its steps lowers the count, whatever the answers are.  So `Controller.run` always
finds the end of a request (`Controller.IsFree.exists_run`), and requests can be served one after
the other for ever.

`Controller.Visits` tells besides where the operation is on its way.
-/

namespace Jukebox

/-- The most steps of a start that the purpose allows, and of all that may follow it. -/
def Purpose.stepsLeft : Purpose → Nat
  | .search s _ => 8 * (s.budget - s.attempt - 1) + 10
  | .request _ => 10
  | .goBack _ attempts => 8 * (Controller.maxPreviousAttempts + 1 - attempts) + 10

namespace Stage

/-- The most steps that lead from a stage to the end of an operation that runs alone, with so
many tracks in the queue. -/
def stepsLeft (n : Nat) : Stage → Nat
  | .finished _ => 0
  | .close _ _ _ | .halting _ | .resuming | .toggling _ | .adjusting _ => 1
  | .giveBack _ _ _ | .settle _ _ | .putBack _ _ | .retire _ => 2
  | .stopAdmission _ => 3
  | .cancelPending => 4
  | .commit l _ _ => l.purpose.stepsLeft - 7
  | .pausing l _ _ | .rollBack l _ _ => l.purpose.stepsLeft - 6
  | .starting l _ _ _ => l.purpose.stepsLeft - 5
  | .install l _ _ => l.purpose.stepsLeft - 4
  | .admission l _ => l.purpose.stepsLeft - 3
  | .resolving l => l.purpose.stepsLeft - 2
  | .ask l => l.purpose.stepsLeft - 1
  | .take s => 8 * (s.budget - s.attempt - 1) + 10
  | .reported s => 8 * (s.budget - s.attempt) + 3
  | .takeBack _ attempts => 8 * (Controller.maxPreviousAttempts - attempts) + 10
  | .measure _ => 8 * n + 11
  | .begin .playNext => 8 * n + 12
  | .begin request => 16 + 8 * (n + (Stage.begin request).carried + Controller.maxPreviousAttempts)

end Stage

theorem Purpose.le_stepsLeft (purpose : Purpose) : 10 ≤ purpose.stepsLeft := by
  cases purpose <;> simp only [stepsLeft] <;> omega

namespace Queue

/-! ## How much a request adds to the queue -/

theorem length_addLast_le (q : Queue) (track : Track) :
    (q.addLast track).length ≤ q.length + 1 := by
  simp only [addLast, add, placed, length, List.length_append, List.length_singleton]
  exact Nat.add_le_add_right (List.length_filter_le _ _) 1

theorem length_addAll_le (q : Queue) (tracks : List Track) :
    (q.addAll tracks).length ≤ q.length + tracks.length := by
  induction tracks generalizing q with
  | nil => exact Nat.le_refl _
  | cons track tracks ih =>
    have hfirst := q.length_addLast_le track
    have hrest := ih (q.addLast track)
    simp only [addAll, List.foldl_cons, List.length_cons] at hrest ⊢
    omega

theorem length_restore_le (q : Queue) (tracks : List Track) (how : RestoreMode) :
    (q.restore tracks how).length ≤ q.length + tracks.length := by
  cases how with
  | append => exact q.length_addAll_le tracks
  | replace =>
    have hle := q.clear.length_addAll_le tracks
    have hclear : q.clear.length = 0 := rfl
    simp only [restore]
    omega

theorem length_shuffled (q : Queue) (words : RandomWords) :
    (q.shuffled words).1.length = q.length :=
  length_shuffle q.items words

end Queue

theorem Request.length_queueAfter_le (s : PlaybackState) (request : Request) :
    (request.queueAfter s).length ≤ s.queue.length + (Stage.begin request).carried := by
  cases request with
  | enqueue track => exact Nat.le_succ_of_le (s.queue.length_addLast_le _)
  | addPlaylist tracks => exact s.queue.length_addAll_le tracks
  | exchange i j =>
    simp only [queueAfter, Queue.exchange]
    split <;> simp [Except.toOption, Queue.length]
  | remove index =>
    simp only [queueAfter, Queue.remove]
    split
    · simpa [Except.toOption, Queue.length] using
        Nat.le_add_right_of_le (List.length_eraseIdx_le _ _)
    · simp [Except.toOption]
  | shuffle => exact Nat.le_add_right_of_le (s.queue.length_shuffled s.words).le
  | clear => exact Nat.zero_le _
  | restore saved how => exact s.queue.length_restore_le saved.tracks how
  | setPlaylist playlist tracks =>
    have hle := s.queue.length_restore_le tracks .replace
    simp only [queueAfter, PlaybackState.setPlaylist, Stage.carried]
    split
    · exact (Queue.length_shuffled _ _).trans_le hle
    · exact hle
  | _ => exact Nat.le_add_right _ _

namespace Controller

variable {w : Collaborators} {c d : Controller} {op : Nat} {stage next : Stage} {signal : Signal}
  {events told : List PlaybackEvent} {request : Request}

/-! ## Each step brings an operation nearer to its end -/

theorem stepsLeft_superseded (l : Launch) (n : Nat) : (superseded l).stepsLeft n ≤ 2 := by
  unfold superseded
  cases l.purpose with
  | search s generation => exact Nat.le_refl 2
  | request cascade => exact Nat.le_succ 1
  | goBack cascade attempts => exact Nat.le_refl 2

theorem stepsLeft_succeeded (l : Launch) (n : Nat) : (succeeded l).1.stepsLeft n ≤ 2 := by
  unfold succeeded
  cases l.purpose with
  | search s generation => exact Nat.le_refl 2
  | request cascade => exact Nat.le_succ 1
  | goBack cascade attempts => exact Nat.le_succ 1

/-- The next attempt is one of those that the cascade may still make. -/
theorem stepsLeft_nextAttempt (c : Controller) (s : Search) (n : Nat) :
    (c.nextAttempt s).1.stepsLeft n ≤ 8 * (s.budget - s.attempt) + 2 := by
  unfold nextAttempt
  by_cases hattempt : s.attempt < s.budget
  · by_cases hcancelled : c.isCancelled s.cascade.token = true
    · simp only [hattempt, hcancelled, if_true, Stage.stepsLeft]
      omega
    · simp only [hattempt, hcancelled, if_true, Stage.stepsLeft]
      simp only [Bool.false_eq_true, if_false]
      omega
  · simp only [hattempt, if_false, endSearch, Stage.stepsLeft]
    omega

theorem stepsLeft_failed (l : Launch) (e : Error) (n : Nat) :
    (failed l e).1.stepsLeft n + 7 ≤ l.purpose.stepsLeft := by
  unfold failed
  cases l.purpose with
  | search s generation =>
    simp only [Stage.stepsLeft, Purpose.stepsLeft]
    omega
  | request cascade =>
    simp only [Stage.stepsLeft, Purpose.stepsLeft]
    omega
  | goBack cascade attempts =>
    by_cases hattempts : attempts < maxPreviousAttempts
    · simp only [hattempts, if_true, Stage.stepsLeft, Purpose.stepsLeft]
      omega
    · simp only [hattempts, if_false, Stage.stepsLeft, Purpose.stepsLeft]
      omega

theorem Begins.stepsLeft_le (h : Begins c op d next) (n : Nat) :
    next.stepsLeft n ≤ 8 * n + 90 := by
  cases h with
  | opens frame hended hnext =>
    obtain rfl | rfl | ⟨_, _, rfl⟩ := hnext <;>
      simp only [Stage.stepsLeft, Purpose.stepsLeft, maxPreviousAttempts] <;> omega
  | cancels => simp only [Stage.stepsLeft]; omega
  | holds frame hnext =>
    obtain rfl | ⟨_, rfl⟩ | ⟨_, rfl⟩ := hnext <;> simp only [Stage.stepsLeft] <;> omega
  | keeps frame hnext =>
    obtain rfl | rfl | ⟨_, rfl⟩ := hnext <;> simp only [Stage.stepsLeft] <;> omega

/-- The first step of a request pays for the tracks that it adds to the queue. -/
theorem Begins.stepsLeft_lt (h : Begins c op d next)
    (e : c.begin op request = (d, next, told)) :
    next.stepsLeft d.state.queue.length < (Stage.begin request).stepsLeft c.state.queue.length := by
  have hqueue : d.state.queue = request.queueAfter c.state := by
    rw [← begin_queue c op request, e]
  have hlength : d.state.queue.length ≤ c.state.queue.length + (Stage.begin request).carried :=
    hqueue ▸ request.length_queueAfter_le c.state
  have hnext := h.stepsLeft_le d.state.queue.length
  cases request with
  | playNext =>
    cases e
    exact Nat.lt_succ_self _
  | _ =>
    apply hnext.trans_lt
    simp only [Stage.stepsLeft, maxPreviousAttempts]
    omega

/-- Every step of an operation brings it nearer to its end, whatever the answers are. -/
theorem stepsLeft_lt_of_step? (h : c.step? op stage signal = some (d, next, told)) :
    next.stepsLeft d.state.queue.length < stage.stepsLeft c.state.queue.length := by
  cases transition_of_step? h with
  | begin e begins => exact begins.stepsLeft_lt e
  | @measure cascade search =>
    -- The transition does not tell how many attempts are granted.
    let granted : Search := ⟨cascade, Nat.max c.state.queue.length 1, 0, .start c.reportLimit⟩
    have hgranted : (c.nextAttempt granted).1 = (c.nextAttempt search).1 := by
      obtain ⟨-, hlocked⟩ := Option.ite_none_right_eq_some.mp h
      have hnext := congrArg (fun progress => progress.2.1) (Option.some.inj hlocked)
      exact hnext
    have hle := c.stepsLeft_nextAttempt granted c.state.queue.length
    rw [hgranted] at hle
    have hmax : Nat.max c.state.queue.length 1 ≤ c.state.queue.length + 1 :=
      Nat.max_le.mpr ⟨Nat.le_succ _, Nat.le_add_left 1 _⟩
    simp only [granted, Stage.stepsLeft] at hle ⊢
    omega
  | retry => exact Nat.lt_succ_of_le (stepsLeft_nextAttempt c _ _)
  | takeNothing | takeBackNothing | takeBack =>
    simp only [Stage.stepsLeft, Purpose.stepsLeft]
    omega
  | @rollBack l displaced e =>
    have hlaunch := l.purpose.le_stepsLeft
    have hle := stepsLeft_failed l e c.state.queue.length
    simp only [Stage.stepsLeft, update] at hle ⊢
    omega
  | @commit l =>
    have hlaunch := l.purpose.le_stepsLeft
    refine Nat.lt_of_le_of_lt (stepsLeft_succeeded l _) ?_
    simp only [Stage.stepsLeft]
    omega
  | @refuse l =>
    have hlaunch := l.purpose.le_stepsLeft
    refine Nat.lt_of_le_of_lt (stepsLeft_superseded l _) ?_
    simp only [Stage.stepsLeft]
    omega
  | @cancel stage l hstage =>
    have hlaunch := l.purpose.le_stepsLeft
    refine Nat.lt_of_le_of_lt (stepsLeft_superseded l _) ?_
    cases hstage <;> simp only [Stage.stepsLeft] <;> omega
  | @resolveFails l reply hreply e =>
    have hlaunch := l.purpose.le_stepsLeft
    have hle := stepsLeft_failed l e c.state.queue.length
    have hresolving : (Stage.resolving l).stepsLeft c.state.queue.length =
        l.purpose.stepsLeft - 2 := rfl
    omega
  | @askDirect l | @askResolver l | @resolve l | @enter l | @install l | @startFails l
  | @started l | @startedAtRest l | @paused l =>
    have hlaunch := l.purpose.le_stepsLeft
    simp only [Stage.stepsLeft]
    omega
  | pauseSet hstage => cases hstage <;> exact Nat.one_pos
  | pauseKept hstage => cases hstage <;> exact Nat.one_pos
  | _ => exact Nat.lt_succ_self _

/-! ## Nobody else is in the way -/

/-- What an operation that runs alone finds at a stage: only it may hold the lock or be inside
the gate. -/
structure IsAlone (c : Controller) (stage : Stage) : Prop where
  lock : c.lockedBy = none ∨ KeepsLock stage
  gate : c.gateHeldBy = none ∨ stage.isInside = true

theorem IsFree.isAlone (h : c.IsFree) (stage : Stage) : IsAlone c stage := ⟨.inl h.1, .inl h.2⟩

theorem IsAlone.step (h : IsAlone c stage)
    (hstep : c.step? op stage signal = some (d, next, told)) : IsAlone d next := by
  have htransition := transition_of_step? hstep
  constructor
  · rcases htransition.lock with ⟨hsame, hkeeps⟩ | ⟨-, hkeeps⟩ | hnone
    · exact .inl (hsame.trans (h.lock.resolve_right hkeeps))
    · exact .inr hkeeps
    · exact .inl hnone
  · rcases htransition.gate with ⟨hinside, hsame⟩ | ⟨-, hinside, -⟩ | ⟨-, -, hnone⟩
    · exact h.gate.imp hsame.trans hinside.trans
    · exact .inr hinside
    · exact .inl hnone

/-- At its end the operation has left the lock and the gate. -/
theorem IsAlone.isFree {answer : Answer} (h : IsAlone c (.finished answer)) : c.IsFree :=
  ⟨h.lock.resolve_right nofun, h.gate.resolve_right nofun⟩

theorem KeepsLock.need (h : KeepsLock stage) : stage.need = .player := by
  cases h <;> rfl

theorem isInside_of_need_gate (h : stage.need = .gate) : stage.isInside = false := by
  cases stage <;> simp_all [Stage.need, Stage.isInside]

/-- An operation that runs alone takes a step at every stage but the last, whatever the resolver
or the player answers. -/
theorem IsAlone.exists_step (h : IsAlone c stage) (w : Collaborators) (op : Nat)
    (events : List PlaybackEvent) (hstage : ∀ answer, stage ≠ .finished answer) :
    ∃ d next told, c.step? op stage (w.signal events stage) = some (d, next, told) := by
  suffices hsome : (c.step? op stage (w.signal events stage)).isSome = true by
    obtain ⟨⟨d, next, told⟩, hstep⟩ := Option.isSome_iff_exists.mp hsome
    exact ⟨d, next, told, hstep⟩
  cases hneed : stage.need with
  | lock =>
    have hlock : c.lockedBy = none := by
      apply h.lock.resolve_right
      intro hkeeps
      cases hkeeps.need.symm.trans hneed
    simp [step?, Collaborators.signal, hneed, hlock]
  | gate =>
    have hgate : c.gateHeldBy = none := by
      apply h.gate.resolve_right
      simp [isInside_of_need_gate hneed]
    simp [step?, Collaborators.signal, hneed, hgate]
  | nothing =>
    cases stage with
    | ask l => cases hdirect : l.direct? <;> simp [step?, Collaborators.signal, hneed, hdirect]
    | reported search => rfl
    | _ => cases hneed
  | resolver =>
    cases stage with
    | resolving l => rfl
    | _ => cases hneed
  | player => simp [step?, Collaborators.signal, hneed]
  | _ =>
    cases stage with
    | finished answer => exact absurd rfl (hstage answer)
    | _ => cases hneed

/-- As many steps as are left suffice. -/
theorem exists_runFor_of_isAlone (w : Collaborators) (op : Nat) {fuel : Nat}
    (h : IsAlone c stage) (events : List PlaybackEvent)
    (hfuel : stage.stepsLeft c.state.queue.length ≤ fuel) :
    ∃ run, runFor w op fuel c events stage = some run := by
  induction fuel using Nat.strong_induction_on generalizing c stage events with
  | _ fuel ih =>
    by_cases hfinished : ∃ answer, stage = .finished answer
    · obtain ⟨answer, rfl⟩ := hfinished
      exact ⟨⟨c, events, answer⟩, by simp only [runFor]⟩
    · rw [not_exists] at hfinished
      obtain ⟨d, next, told, hstep⟩ := h.exists_step w op events hfinished
      have hlt := stepsLeft_lt_of_step? hstep
      obtain ⟨rest, rfl⟩ := Nat.exists_eq_succ_of_ne_zero (show fuel ≠ 0 by omega)
      obtain ⟨run, hrun⟩ := ih rest (Nat.lt_succ_self rest) (h.step hstep) (events ++ told)
        (by omega)
      refine ⟨run, ?_⟩
      rw [runFor, hstep]
      · exact hrun
      · exact hfinished

theorem stepsLeft_begin_le (c : Controller) (request : Request) :
    (Stage.begin request).stepsLeft c.state.queue.length ≤ c.stepBound request := by
  cases request with
  | playNext =>
    simp only [Stage.stepsLeft, stepBound]
    omega
  | _ => exact Nat.le_refl _

/-- While nothing else runs, every request is answered. -/
theorem IsFree.exists_run (h : c.IsFree) (w : Collaborators) (request : Request) :
    ∃ run, c.run w request = some run :=
  exists_runFor_of_isAlone w 0 (h.isAlone _) [] (c.stepsLeft_begin_le request)

/-! ## Requests served one after the other -/

/-- What holds of a stage and is kept by every step holds where an operation ends. -/
theorem Completes.invariant {P : Controller → Stage → Prop} {run : PlaybackRun}
    (h : Completes op c stage run) (hstart : P c stage)
    (hkeeps : ∀ {c d stage next signal told}, P c stage →
      c.step? op stage signal = some (d, next, told) → P d next) :
    P run.controller (.finished run.answer) := by
  induction h with
  | finished c answer => exact hstart
  | step signal hstep rest ih => exact ih (hkeeps hstart hstep)

/-- What holds wherever a request comes in, and is kept by every step, holds again after any
requests that are served. -/
theorem Serves.invariant {P : Controller → Stage → Prop} {served : List (Request × PlaybackRun)}
    (h : Serves c served d) (hstart : ∀ request, P c (.begin request))
    (hkeeps : ∀ {op c d stage next signal told}, P c stage →
      c.step? op stage signal = some (d, next, told) → P d next)
    (hagain : ∀ {c answer}, P c (.finished answer) → ∀ request, P c (.begin request)) :
    ∀ request, P d (.begin request) := by
  induction h with
  | nil => exact hstart
  | cons op hrun rest ih => exact ih (hagain (hrun.invariant (hstart _) hkeeps))

theorem IsFree.serves {served : List (Request × PlaybackRun)} (h : c.IsFree)
    (hserved : Serves c served d) : d.IsFree := by
  have halone : ∀ request, IsAlone d (.begin request) :=
    hserved.invariant (fun request => h.isAlone _) IsAlone.step
      fun hend request => hend.isFree.isAlone _
  exact ⟨(halone .mode).lock.resolve_right nofun, (halone .mode).gate.resolve_right nofun⟩

/-! ## On the way -/

/-- From a stage an operation that runs alone can come to this end, by way of these controllers,
each with the stage at which the operation is. -/
inductive Visits (op : Nat) :
    Controller → Stage → List (Controller × Stage) → PlaybackRun → Prop
  | finished (c : Controller) (answer : Answer) :
      Visits op c (.finished answer) [(c, .finished answer)] ⟨c, [], answer⟩
  | step {c d : Controller} {stage next : Stage} {told : List PlaybackEvent}
      {visited : List (Controller × Stage)} {run : PlaybackRun} (signal : Signal)
      (h : c.step? op stage signal = some (d, next, told)) (rest : Visits op d next visited run) :
      Visits op c stage ((c, stage) :: visited) { run with events := told ++ run.events }

variable {visited : List (Controller × Stage)} {run : PlaybackRun}

/-- Wherever an operation comes to its end, it has come there by some way. -/
theorem completes_iff_exists_visits :
    Completes op c stage run ↔ ∃ visited, Visits op c stage visited run := by
  constructor
  · intro h
    induction h with
    | finished c answer => exact ⟨_, .finished c answer⟩
    | step signal hstep rest ih =>
      obtain ⟨visited, hrest⟩ := ih
      exact ⟨_, .step signal hstep hrest⟩
  · rintro ⟨visited, h⟩
    induction h with
    | finished c answer => exact .finished c answer
    | step signal hstep rest ih => exact .step signal hstep ih

theorem Visits.ne_nil (h : Visits op c stage visited run) : visited ≠ [] := by
  cases h <;> exact List.cons_ne_nil _ _

theorem Visits.getLast?_eq (h : Visits op c stage visited run) :
    visited.getLast? = some (run.controller, .finished run.answer) := by
  induction h with
  | finished c answer => rfl
  | step signal hstep rest ih => rw [List.getLast?_cons_of_ne_nil rest.ne_nil, ih]

/-- What holds at a stage and is kept by every step holds all the way. -/
theorem Visits.invariant {P : Controller → Stage → Prop} (h : Visits op c stage visited run)
    (hstart : P c stage)
    (hkeeps : ∀ {c d stage next signal told}, P c stage →
      c.step? op stage signal = some (d, next, told) → P d next) :
    ∀ v ∈ visited, P v.1 v.2 := by
  induction h with
  | finished c answer => exact List.forall_mem_singleton.mpr hstart
  | step signal hstep rest ih => exact List.forall_mem_cons.mpr ⟨hstart, ih (hkeeps hstart hstep)⟩

/-- What holds at a stage, and not at the end, is given up once on the way, if each step keeps it
or puts something else in its place that is never given up. -/
theorem Visits.exists_append {P Q : Controller → Stage → Prop}
    (h : Visits op c stage visited run) (hstart : P c stage)
    (hfirst : ∀ {c d stage next signal told}, P c stage →
      c.step? op stage signal = some (d, next, told) → P d next ∨ Q d next)
    (hthen : ∀ {c d stage next signal told}, Q c stage →
      c.step? op stage signal = some (d, next, told) → Q d next)
    (hend : ∀ {c answer}, ¬P c (.finished answer)) :
    ∃ before after, visited = before ++ after ∧ before ≠ [] ∧ after ≠ [] ∧
      (∀ v ∈ before, P v.1 v.2) ∧ ∀ v ∈ after, Q v.1 v.2 := by
  induction h with
  | finished c answer => exact absurd hstart hend
  | @step c d stage next told visited run signal hstep rest ih =>
    rcases hfirst hstart hstep with hnext | hnext
    · obtain ⟨before, after, rfl, -, hafter, hP, hQ⟩ := ih hnext
      exact ⟨(c, stage) :: before, after, rfl, List.cons_ne_nil _ _, hafter,
        List.forall_mem_cons.mpr ⟨hstart, hP⟩, hQ⟩
    · exact ⟨[(c, stage)], visited, rfl, List.cons_ne_nil _ _, rest.ne_nil,
        List.forall_mem_singleton.mpr hstart, rest.invariant hnext hthen⟩

end Controller

end Jukebox
