import Mathlib.Control.Monad.Basic
import Jukebox.Playback.System
import Jukebox.Proofs.InFlight

/-!
# Runs of a system

A run is the list of the moves that lead from one system to another: requests that come in
and steps of operations, in any order.  What may come from outside on a run, which requests
and which answers of the resolver and the player, is a parameter.  `System.Reaches` forgets
the moves (`System.reaches_iff_exists_run`).

What an advance changes is read off through `System.stage?`: the operation comes to its next
stage, or leaves, and every other operation stays where it is.
-/

namespace Jukebox

deriving instance DecidableEq for Request, Answer, Stage

/-- What may happen next in a system, told by what brings it about. -/
inductive Move where
  | arrive (request : Request)
  | advance (op : Nat) (signal : Signal)

namespace Stage

/-- A stage at which the operation is still in flight. -/
def underWay? : Stage → Option Stage
  | .finished _ => none
  | stage => some stage

@[simp] theorem underWay?_eq_some {stage other : Stage} :
    stage.underWay? = some other ↔ stage = other ∧ ∀ answer, stage ≠ .finished answer := by
  cases stage <;> simp [underWay?]

end Stage

namespace System

/-- The system after a move; `none` where the move cannot be made. -/
def move? (s : System) : Move → Option System
  | .arrive request => some (s.arrive request)
  | .advance op signal => s.advance? op signal

/-- The system after some moves, one after the other. -/
def moves? (s : System) : List Move → Option System
  | [] => some s
  | m :: moves => (s.move? m).bind fun t => t.moves? moves

/-- The moves lead from `s` to the last system, and each is allowed where it is made. -/
inductive Run (allowed : System → Move → Prop) (s : System) : List Move → System → Prop
  | nil : Run allowed s [] s
  | snoc {moves : List Move} {t u : System} {m : Move} (run : Run allowed s moves t)
      (hallowed : allowed t m) (hmove : t.move? m = some u) : Run allowed s (moves ++ [m]) u

/-- Every move is allowed. -/
def anyMove (_ : System) (_ : Move) : Prop := True

/-- A system with the settings of a new installation, on which nothing has happened. -/
def blank : System := start (Controller.start ⟨default, ⟨[], .standard⟩, .empty⟩ 0 [])

/-- So many steps of one operation, for which it needs no answer. -/
def goes (op n : Nat) : List Move := List.replicate n (.advance op .go)

/-! ## Runs and their parts -/

variable {allowed : System → Move → Prop} {s t u : System} {m : Move}
  {moves more : List Move}

theorem Run.append (h : s.Run allowed moves t) (h' : t.Run allowed more u) :
    s.Run allowed (moves ++ more) u := by
  induction h' with
  | nil => simpa using h
  | snoc _ hallowed hmove ih =>
    rw [← List.append_assoc]
    exact .snoc ih hallowed hmove

theorem Run.single (hallowed : allowed s m) (hmove : s.move? m = some t) :
    s.Run allowed [m] t := by
  simpa using Run.nil.snoc hallowed hmove

/-- What holds at the start and is kept by every allowed move holds at the end of a run. -/
theorem Run.invariant {P : System → Prop} (h : s.Run allowed moves t) (hstart : P s)
    (hmove : ∀ {v w : System} {m : Move}, P v → allowed v m → v.move? m = some w → P w) :
    P t := by
  induction h with
  | nil => exact hstart
  | snoc _ hallowed hm ih => exact hmove ih hallowed hm

theorem Run.weaken {weaker : System → Move → Prop} (h : s.Run allowed moves t)
    (himp : ∀ {v m}, allowed v m → weaker v m) : s.Run weaker moves t := by
  induction h with
  | nil => exact .nil
  | snoc _ hallowed hmove ih => exact ih.snoc (himp hallowed) hmove

theorem moves?_append (s : System) (moves more : List Move) :
    s.moves? (moves ++ more) = (s.moves? moves).bind fun t => t.moves? more := by
  induction moves generalizing s with
  | nil => simp [moves?]
  | cons m moves ih =>
    cases h : s.move? m with
    | none => simp [moves?, h]
    | some t => simp [moves?, h, ih]

theorem moves?_eq_some_of_run (h : s.Run allowed moves t) : s.moves? moves = some t := by
  induction h with
  | nil => rfl
  | snoc _ _ hmove ih => simp [moves?_append, ih, moves?, hmove]

/-- Moves that can be made, and are allowed anywhere, are a run. -/
theorem run_of_moves? (hallowed : ∀ v, ∀ m ∈ moves, allowed v m) (h : s.moves? moves = some t) :
    s.Run allowed moves t := by
  induction moves generalizing s with
  | nil =>
    obtain rfl : s = t := by simpa [moves?] using h
    exact .nil
  | cons m moves ih =>
    obtain ⟨u, hmove, hrest⟩ := Option.bind_eq_some_iff.mp h
    have hfirst := Run.single (hallowed s m List.mem_cons_self) hmove
    exact hfirst.append (ih (fun v m hm => hallowed v m (List.mem_cons_of_mem _ hm)) hrest)

/-- The system after some moves, if they can be made. -/
def after (s : System) (moves : List Move) : System := (s.moves? moves).getD s

theorem run_after_of_allowed (hallowed : ∀ v, ∀ m ∈ moves, allowed v m)
    (h : (s.moves? moves).isSome) : s.Run allowed moves (s.after moves) := by
  obtain ⟨t, ht⟩ := Option.isSome_iff_exists.mp h
  have hafter : s.after moves = t := by simp [after, ht]
  rw [hafter]
  exact run_of_moves? hallowed ht

theorem run_after (h : (s.moves? moves).isSome) : s.Run anyMove moves (s.after moves) :=
  run_after_of_allowed (fun _ _ _ => trivial) h

theorem Run.after_eq (h : s.Run allowed moves t) : s.after moves = t := by
  simp [after, moves?_eq_some_of_run h]

theorem Run.target_unique (h : s.Run allowed moves t) (h' : s.Run allowed moves u) : t = u :=
  h.after_eq.symm.trans h'.after_eq

/-- A run goes through the system that a part of its moves leads to. -/
theorem Run.split (h : s.Run allowed (moves ++ more) u) :
    ∃ t, s.Run allowed moves t ∧ t.Run allowed more u := by
  generalize hall : moves ++ more = all at h
  induction h generalizing more with
  | nil =>
    obtain ⟨rfl, rfl⟩ := List.append_eq_nil_iff.mp hall
    exact ⟨s, .nil, .nil⟩
  | @snoc before v w m run hallowed hmove ih =>
    rcases more.eq_nil_or_concat with rfl | ⟨more, last, rfl⟩
    · rw [List.append_nil] at hall
      subst hall
      exact ⟨w, run.snoc hallowed hmove, .nil⟩
    · rw [List.concat_eq_append, ← List.append_assoc] at hall
      obtain ⟨hbefore, hlast⟩ := List.append_inj' hall rfl
      obtain ⟨t, hfirst, hrest⟩ := ih hbefore
      obtain rfl := List.singleton_inj.mp hlast
      rw [List.concat_eq_append]
      exact ⟨t, hfirst, hrest.snoc hallowed hmove⟩

theorem Run.of_single (h : s.Run allowed [m] t) : allowed s m ∧ s.move? m = some t := by
  generalize hall : [m] = all at h
  cases h with
  | nil => cases hall
  | @snoc before u _ last run hallowed hmove =>
    have hsplit : before ++ [last] = [] ++ [m] := hall.symm
    obtain ⟨rfl, hlast⟩ := List.append_inj' hsplit rfl
    obtain rfl := List.singleton_inj.mp hlast
    have hu := moves?_eq_some_of_run run
    obtain rfl : s = u := by simpa [moves?] using hu
    exact ⟨hallowed, hmove⟩

theorem Run.split_cons (h : s.Run allowed (m :: moves) u) :
    ∃ t, s.Run allowed [m] t ∧ t.Run allowed moves u :=
  Run.split h

/-- What a run does once a part of its moves is made. -/
theorem Run.next (h : s.Run allowed (moves ++ m :: more) u) (h' : s.Run allowed moves t) :
    ∃ v, allowed t m ∧ t.move? m = some v ∧ v.Run allowed more u := by
  obtain ⟨t', hfirst, hrest⟩ := h.split
  obtain rfl := hfirst.target_unique h'
  obtain ⟨v, hone, hmore⟩ := hrest.split_cons
  obtain ⟨hallowed, hmove⟩ := hone.of_single
  exact ⟨v, hallowed, hmove, hmore⟩

/-- Every move passes the test where it is made. -/
def passes (test : System → Move → Bool) : System → List Move → Bool
  | _, [] => true
  | s, m :: moves => test s m && (s.move? m).any fun t => passes test t moves

/-- Moves that pass a test for what is allowed are a run. -/
theorem run_after_of_passes {test : System → Move → Bool}
    (htest : ∀ v m, test v m = true → allowed v m) (h : passes test s moves = true) :
    s.Run allowed moves (s.after moves) := by
  suffices hrun : ∃ t, s.Run allowed moves t by
    obtain ⟨t, run⟩ := hrun
    rw [run.after_eq]
    exact run
  induction moves generalizing s with
  | nil => exact ⟨s, .nil⟩
  | cons m moves ih =>
    obtain ⟨hfirst, hrest⟩ := Bool.and_eq_true_iff.mp h
    obtain ⟨t, hmove, hpasses⟩ : ∃ t, s.move? m = some t ∧ passes test t moves = true := by
      cases hmove : s.move? m with
      | none => simp [hmove] at hrest
      | some t => exact ⟨t, rfl, by simpa [hmove] using hrest⟩
    obtain ⟨u, run⟩ := ih hpasses
    exact ⟨u, (Run.single (htest s m hfirst) hmove).append run⟩

theorem move?_eq_some_after (h : (s.move? m).isSome) : s.move? m = some (s.after [m]) := by
  obtain ⟨t, ht⟩ := Option.isSome_iff_exists.mp h
  simp [after, moves?, ht]

theorem step_iff_exists_move : Step s t ↔ ∃ m, s.move? m = some t := by
  constructor
  · intro h
    cases h with
    | arrive request => exact ⟨.arrive request, rfl⟩
    | advance op signal h => exact ⟨.advance op signal, h⟩
  · rintro ⟨m, h⟩
    cases m with
    | arrive request =>
      obtain rfl : s.arrive request = t := by simpa [move?] using h
      exact .arrive s request
    | advance op signal => exact .advance op signal h

/-- A system is reached exactly if a run leads to it. -/
theorem reaches_iff_exists_run : Reaches s t ↔ ∃ moves, s.Run anyMove moves t := by
  constructor
  · intro h
    induction h with
    | refl => exact ⟨[], .nil⟩
    | tail _ step ih =>
      obtain ⟨moves, run⟩ := ih
      obtain ⟨m, hmove⟩ := step_iff_exists_move.mp step
      exact ⟨moves ++ [m], run.snoc trivial hmove⟩
  · rintro ⟨moves, run⟩
    induction run with
    | nil => exact .refl
    | snoc _ _ hmove ih => exact ih.tail (step_iff_exists_move.mpr ⟨_, hmove⟩)

/-! ## What a move changes -/

theorem mem_inFlight_of_stage? {op : Nat} {stage : Stage} (h : s.stage? op = some stage) :
    (op, stage) ∈ s.inFlight := by
  obtain ⟨before, after, heq, -⟩ := List.lookup_eq_some_iff.mp h
  rw [heq]
  exact List.mem_append_right _ List.mem_cons_self

theorem Quiet.stage? (h : s.Quiet) (op : Nat) : s.stage? op = none := by
  have hempty : s.inFlight = [] := h
  simp [System.stage?, hempty]

@[simp] theorem arrive_controller (s : System) (request : Request) :
    (s.arrive request).controller = s.controller := rfl

@[simp] theorem arrive_log (s : System) (request : Request) :
    (s.arrive request).log = s.log := rfl

@[simp] theorem arrive_fresh (s : System) (request : Request) :
    (s.arrive request).fresh = s.fresh + 1 := rfl

/-- A request that comes in is an operation of its own. -/
theorem stage?_arrive (h : s.stage? s.fresh = none) (request : Request) (op : Nat) :
    (s.arrive request).stage? op =
      if op = s.fresh then some (.begin request) else s.stage? op :=
  InFlight.lookup_append_fresh h (.begin request) op

@[simp] theorem moved_controller (s : System) (op : Nat) (stage : Stage) :
    (s.moved op stage).controller = s.controller := by
  cases stage <;> rfl

@[simp] theorem moved_fresh (s : System) (op : Nat) (stage : Stage) :
    (s.moved op stage).fresh = s.fresh := by
  cases stage <;> rfl

theorem stage?_moved {old : Stage} (h : s.stage? op = some old) (stage : Stage) (op' : Nat) :
    (s.moved op stage).stage? op' =
      if op' = op then stage.underWay? else s.stage? op' := by
  have hmap : ∀ stage : Stage,
      (s.inFlight.map fun entry => (entry.1, if entry.1 = op then stage else entry.2)).lookup
        op' = if op' = op then some stage else s.inFlight.lookup op' := by
    intro stage
    rw [InFlight.lookup_map_stage]
    by_cases hop : op' = op
    · subst hop
      have hold : s.inFlight.lookup op' = some old := h
      simp [hold]
    · simp [hop]
  cases stage with
  | finished answer => exact Entries.lookup_filter_ne s.inFlight op op'
  | _ => exact hmap _

/-- An operation that takes a step of the controller: what it was about, what comes of it, and
where everybody stands afterwards. -/
structure Advances (s t : System) (op : Nat) (signal : Signal) (stage next : Stage)
    (told : List PlaybackEvent) : Prop where
  before : s.stage? op = some stage
  step : s.controller.step? op stage signal = some (t.controller, next, told)
  after : ∀ op', t.stage? op' = if op' = op then next.underWay? else s.stage? op'
  fresh : t.fresh = s.fresh
  log : ∃ answers : List LogEntry, (∀ entry ∈ answers, entry.event? = none) ∧
    t.log = s.log ++ told.map (LogEntry.event op) ++ answers

theorem advances_of_advance? {op : Nat} {signal : Signal}
    (h : s.advance? op signal = some t) :
    ∃ stage next told, s.Advances t op signal stage next told := by
  obtain ⟨stage, hstage, h⟩ := Option.bind_eq_some_iff.mp h
  obtain ⟨⟨c, next, told⟩, hstep, h⟩ := Option.bind_eq_some_iff.mp h
  let v : System := { s with controller := c, log := s.log ++ told.map (LogEntry.event op) }
  obtain rfl : v.moved op next = t := by simpa [v] using h
  have hv : v.stage? op = some stage := hstage
  refine ⟨stage, next, told, hstage, by simpa [v] using hstep, ?_, by simp [v], ?_⟩
  · exact stage?_moved hv next
  · cases next with
    | finished answer => exact ⟨[.answered op answer], by simp [LogEntry.event?], rfl⟩
    | _ => exact ⟨[], by simp, by simp [v, moved]⟩

theorem mem_log_of_finished {c : Controller} {op : Nat} {signal : Signal} {stage : Stage}
    {told : List PlaybackEvent} {answer : Answer} (hmove : s.move? (.advance op signal) = some t)
    (hstage : s.stage? op = some stage)
    (hstep : s.controller.step? op stage signal = some (c, .finished answer, told)) :
    .answered op answer ∈ t.log := by
  simp only [move?, advance?, hstage, hstep, Option.bind_eq_bind, Option.bind_some,
    Option.some.injEq] at hmove
  rw [← hmove]
  exact List.mem_append_right _ (List.mem_singleton_self _)

theorem Advances.events {op : Nat} {signal : Signal} {stage next : Stage}
    {told : List PlaybackEvent} (h : s.Advances t op signal stage next told) :
    t.events = s.events ++ told := by
  obtain ⟨answers, hanswers, hlog⟩ := h.log
  have hsilent : answers.filterMap LogEntry.event? = [] :=
    List.filterMap_eq_nil_iff.mpr hanswers
  have htold : (told.map (LogEntry.event op)).filterMap LogEntry.event? = told := by
    rw [List.filterMap_map]
    exact List.filterMap_some
  simp only [System.events, hlog, List.filterMap_append, hsilent, htold, List.append_nil]

/-- An operation that is not over is in flight. -/
theorem Advances.stage?_self {op : Nat} {signal : Signal} {stage next : Stage}
    {told : List PlaybackEvent} (h : s.Advances t op signal stage next told)
    (hnext : ∀ answer, next ≠ .finished answer) : t.stage? op = some next := by
  rw [h.after, if_pos rfl, Stage.underWay?_eq_some]
  exact ⟨rfl, hnext⟩

theorem Advances.stage?_of_finished {op : Nat} {signal : Signal} {stage next : Stage}
    {told : List PlaybackEvent} {answer : Answer}
    (h : s.Advances t op signal stage next told) (hnext : next = .finished answer) :
    t.stage? op = none := by
  rw [h.after, if_pos rfl, hnext]
  rfl

theorem Advances.stage?_of_ne {op op' : Nat} {signal : Signal} {stage next : Stage}
    {told : List PlaybackEvent} (h : s.Advances t op signal stage next told) (hne : op' ≠ op) :
    t.stage? op' = s.stage? op' := by
  rw [h.after, if_neg hne]

/-- After an advance an operation stands at the next stage of the one that took the step, or
it is another one and stands where it stood. -/
theorem Advances.stage?_cases {op op' : Nat} {signal : Signal} {stage next stage' : Stage}
    {told : List PlaybackEvent} (h : s.Advances t op signal stage next told)
    (hstage' : t.stage? op' = some stage') :
    op' = op ∧ stage' = next ∨ op' ≠ op ∧ s.stage? op' = some stage' := by
  by_cases hop : op' = op
  · rw [h.after, if_pos hop, Stage.underWay?_eq_some] at hstage'
    exact .inl ⟨hop, hstage'.1.symm⟩
  · exact .inr ⟨hop, (h.stage?_of_ne hop).symm.trans hstage'⟩

/-- Where only one operation is in flight, it alone is afterwards. -/
theorem Advances.stage?_of_alone {op op' : Nat} {signal : Signal} {stage next stage' : Stage}
    {told : List PlaybackEvent} (h : s.Advances t op signal stage next told)
    (halone : ∀ {op op' stage stage'}, s.stage? op = some stage → s.stage? op' = some stage' →
      op = op')
    (hstage' : t.stage? op' = some stage') : op' = op ∧ stage' = next := by
  rcases h.stage?_cases hstage' with hnext | ⟨hne, hold⟩
  · exact hnext
  · exact absurd (halone hold h.before) hne

end System

end Jukebox
