import Jukebox.Proofs.Playback.Transition

/-!
# What one step changes

Of each transition this says what it does to the calls of the player, to the gate, to the
numbers of cascades and tokens, to the serials, and to the record of the current track; and of
each request, what its first critical section does to the queue.  Later proofs go by these
effects where they can, and not by the transitions.
-/

namespace Jukebox

namespace PlaybackEvent

/-- The serial that is passed to the player, if this is the call that starts a track. -/
def start? : PlaybackEvent → Option Nat
  | .start _ serial _ => some serial
  | _ => none

/-- Nothing happens outside but that words are said. -/
def OnlySays (told : List PlaybackEvent) : Prop := ∀ event ∈ told, ∃ text, event = .say text

namespace OnlySays

variable {told more : List PlaybackEvent}

theorem nil : OnlySays [] := fun _ hevent => absurd hevent List.not_mem_nil

theorem say (text : String) : OnlySays [.say text] := by
  intro event hevent
  exact ⟨text, List.mem_singleton.mp hevent⟩

theorem append (h : OnlySays told) (h' : OnlySays more) : OnlySays (told ++ more) := by
  intro event hevent
  rcases List.mem_append.mp hevent with hevent | hevent
  · exact h event hevent
  · exact h' event hevent

theorem starts (h : OnlySays told) : told.filterMap start? = [] := by
  rw [List.filterMap_eq_nil_iff]
  intro event hevent
  obtain ⟨text, rfl⟩ := h event hevent
  rfl

end OnlySays

end PlaybackEvent

namespace Stage

/-- The serial of the start that the next step asks the player for. -/
def start? : Stage → Option Nat
  | .install _ _ serial => some serial
  | _ => none

theorem isInside_of_isLaunched {stage : Stage} (h : stage.isLaunched = true) :
    stage.isInside = true := by
  cases stage <;> simp_all [isLaunched, isInside]

theorem isInside_of_start? {stage : Stage} {serial : Nat} (h : stage.start? = some serial) :
    stage.isInside = true := by
  cases stage <;> simp_all [start?, isInside]

theorem isLaunched_of_displaced? {stage : Stage} {r : PlaybackRecord}
    (h : stage.displaced? = some r) : stage.isLaunched = true := by
  cases stage <;> simp_all [displaced?, isLaunched]

/-! Outside the gate no start is open, and none is about to be made. -/

theorem isLaunched_eq_false {stage : Stage} (h : stage.isInside = false) :
    stage.isLaunched = false :=
  Bool.eq_false_iff.mpr fun hlaunched => by simp [isInside_of_isLaunched hlaunched] at h

theorem displaced?_eq_none {stage : Stage} (h : stage.isInside = false) :
    stage.displaced? = none := by
  cases hdisplaced : stage.displaced? with
  | none => rfl
  | some r => simp [isInside_of_isLaunched (isLaunched_of_displaced? hdisplaced)] at h

theorem start?_eq_none {stage : Stage} (h : stage.isInside = false) : stage.start? = none := by
  cases hstart : stage.start? with
  | none => rfl
  | some serial => simp [isInside_of_start? hstart] at h

end Stage

/-- The queue after the first critical section of a request. -/
def Request.queueAfter (s : PlaybackState) : Request → Queue
  | .enqueue track => s.queue.addLast { track with inPlaylist := true }
  | .addPlaylist tracks => s.queue.addAll tracks
  | .exchange i j => (s.queue.exchange i j).toOption.getD s.queue
  | .remove index => ((s.queue.remove index).toOption.map Prod.snd).getD s.queue
  | .shuffle => s.shuffle.queue
  | .clear => s.queue.clear
  | .restore saved how => s.queue.restore saved.tracks how
  | .setPlaylist playlist tracks => (s.setPlaylist playlist tracks).queue
  | _ => s.queue

namespace System

/-- The serials that were passed to the player so far, the oldest first. -/
def starts (s : System) : List Nat := s.events.filterMap PlaybackEvent.start?

end System

namespace Controller

open PlaybackEvent (OnlySays)

variable {c d : Controller} {op : Nat} {stage next : Stage} {signal : Signal}
  {told : List PlaybackEvent}

/-! ## Which step starts a track -/

theorem onlySays_summary (r : FailureReporter) : OnlySays r.summary := by
  unfold FailureReporter.summary
  split
  · exact .say _
  · exact .nil

theorem onlySays_record (r : FailureReporter) (track : Track) (e : Error) :
    OnlySays (r.record track e).2 := by
  unfold FailureReporter.record
  split
  · exact .say _
  · exact .nil

theorem onlySays_nextAttempt (c : Controller) (search : Search) :
    OnlySays (c.nextAttempt search).2 := by
  unfold nextAttempt
  split
  · split <;> exact .nil
  · exact onlySays_summary _

theorem onlySays_failed (l : Launch) (e : Error) : OnlySays (failed l e).2 := by
  unfold failed
  cases l.purpose with
  | search s generation => exact onlySays_record _ _ _
  | request cascade => exact .nil
  | goBack cascade attempts =>
    dsimp only
    split <;> exact .nil

theorem onlySays_succeeded (l : Launch) : OnlySays (succeeded l).2 := by
  unfold succeeded
  cases l.purpose with
  | search s generation => exact onlySays_summary _
  | _ => exact .nil

theorem onlySays_closingWords (outcome : PlayOutcome) : OnlySays (closingWords outcome) := by
  cases outcome <;> first | exact .say _ | exact .nil

theorem starts_begin (c : Controller) (op : Nat) (request : Request) :
    (c.begin op request).2.2.filterMap PlaybackEvent.start? = [] := by
  cases request with
  | play =>
    simp only [begin]
    split
    · split <;> rfl
    · rfl
  | stop bySystem => cases bySystem <;> rfl
  | ended serial =>
    simp only [begin, signalled]
    split
    · split <;> rfl
    · rfl
  | failed serial reason =>
    simp only [begin, signalled]
    split
    · split <;> rfl
    · rfl
  | togglePause =>
    simp only [begin]
    split <;> rfl
  | presence event roster =>
    simp only [begin]
    split
    · split <;> rfl
    · rfl
  | exchange i j =>
    simp only [begin]
    split <;> rfl
  | remove index =>
    simp only [begin]
    split <;> rfl
  | _ => rfl

theorem starts_locked (c : Controller) (op : Nat) (stage : Stage) :
    (c.locked op stage).2.2.filterMap PlaybackEvent.start? = stage.start?.toList := by
  cases stage with
  | begin request => exact starts_begin c op request
  | measure cascade => exact (onlySays_nextAttempt c _).starts
  | take search =>
    simp only [locked]
    split
    · rfl
    · exact (onlySays_summary _).starts
  | settle cascade outcome => exact (onlySays_closingWords _).starts
  | close cascade result report => cases report <;> rfl
  | takeBack cascade attempts =>
    simp only [locked]
    split <;> rfl
  | rollBack l displaced e => exact (onlySays_failed l e).starts
  | commit l r displaced => exact (onlySays_succeeded l).starts
  | _ => rfl

theorem starts_admitted (c : Controller) (op : Nat) (stage : Stage) :
    (c.admitted op stage).2.2.filterMap PlaybackEvent.start? = [] := by
  cases stage with
  | admission l r =>
    simp only [admitted]
    split <;> rfl
  | _ => rfl

theorem starts_played (c : Controller) (stage : Stage) (reply : Except Error Unit) :
    (c.played stage reply).2.2.filterMap PlaybackEvent.start? = [] := by
  cases stage with
  | starting l r displaced paused =>
    cases reply with
    | error e => rfl
    | ok => cases paused <;> rfl
  | resuming => cases reply <;> rfl
  | toggling paused => cases reply <;> rfl
  | adjusting paused => cases reply <;> rfl
  | _ => rfl

theorem starts_resolved (l : Launch) (reply : Except Error (Option ResolvedTrack)) :
    (resolved l reply).2.filterMap PlaybackEvent.start? = [] := by
  match reply with
  | .ok (some r) => rfl
  | .ok none => exact (onlySays_failed l _).starts
  | .error e => exact (onlySays_failed l e).starts

/-- Exactly the step that makes a new record calls the player to start a track. -/
theorem starts_of_step? (h : c.step? op stage signal = some (d, next, told)) :
    told.filterMap PlaybackEvent.start? = stage.start?.toList := by
  cases hneed : stage.need with
  | lock =>
    obtain ⟨-, hlocked⟩ := locked_of_step? hneed h
    simpa [hlocked] using starts_locked c op stage
  | gate =>
    obtain ⟨-, -, hadmitted⟩ := admitted_of_step? hneed h
    have hnone := starts_admitted c op stage
    rw [hadmitted] at hnone
    cases stage <;> first | exact hnone | simp [Stage.need] at hneed
  | player =>
    obtain ⟨reply, -, hplayed⟩ := played_of_step? hneed h
    have hnone := starts_played c stage reply
    rw [hplayed] at hnone
    cases stage <;> first | exact hnone | simp [Stage.need] at hneed
  | nothing =>
    cases stage with
    | ask l =>
      cases signal with
      | go =>
        simp only [step?, Stage.need] at h
        split at h <;> cases h <;> rfl
      | cancelled =>
        simp only [step?, Stage.need] at h
        split at h <;> cases h
        rfl
      | _ => simp [step?, Stage.need] at h
    | reported search =>
      cases signal with
      | go =>
        simp only [step?, Stage.need] at h
        cases h
        exact (onlySays_nextAttempt c search).starts
      | _ => simp [step?, Stage.need] at h
    | _ => simp [Stage.need] at hneed
  | resolver =>
    cases stage with
    | resolving l =>
      cases signal with
      | cancelled =>
        simp only [step?, Stage.need] at h
        split at h <;> cases h
        rfl
      | resolved reply =>
        simp only [step?, Stage.need, Option.some.injEq, Prod.mk.injEq] at h
        obtain ⟨-, -, rfl⟩ := h
        exact starts_resolved l reply
      | _ => simp [step?, Stage.need] at h
    | _ => simp [Stage.need] at hneed
  | _ => simp [step?, hneed] at h

/-! ## What a step does to the gate, the cascades and the record -/

theorem Unburdened.cascade? {cascade : Cascade} (h : Unburdened cascade stage) :
    stage.cascade? = some cascade := by
  cases h with
  | take search h | reported search h => exact congrArg some h
  | _ => rfl

theorem Unburdened.isInside {cascade : Cascade} (h : Unburdened cascade stage) :
    stage.isInside = false := by
  cases h <;> rfl

theorem cascade?_superseded (l : Launch) : (superseded l).cascade? = some l.purpose.cascade := by
  unfold superseded
  cases l.purpose <;> rfl

theorem isInside_superseded (l : Launch) : (superseded l).isInside = false := by
  unfold superseded
  cases l.purpose <;> rfl

theorem Begins.isInside (h : Begins c op d next) : next.isInside = false := by
  cases h with
  | opens frame hended hnext => obtain rfl | rfl | ⟨_, _, rfl⟩ := hnext <;> rfl
  | cancels => rfl
  | holds frame hnext => obtain rfl | ⟨_, rfl⟩ | ⟨_, rfl⟩ := hnext <;> rfl
  | keeps frame hnext => obtain rfl | rfl | ⟨_, rfl⟩ := hnext <;> rfl

theorem Begins.frame (h : Begins c op d next) :
    d.gateHeldBy = c.gateHeldBy ∧ d.serial = c.serial ∧ d.state.record = c.state.record := by
  cases h with
  | cancels => exact ⟨rfl, rfl, rfl⟩
  | opens frame => exact ⟨frame.gateHeldBy, frame.serial, frame.record⟩
  | holds frame => exact ⟨frame.gateHeldBy, frame.serial, frame.record⟩
  | keeps frame => exact ⟨frame.gateHeldBy, frame.serial, frame.record⟩

/-- The gate is entered while nobody is inside, and left by whoever is. -/
theorem Transition.gate (h : Transition c op stage signal d next) :
    next.isInside = stage.isInside ∧ d.gateHeldBy = c.gateHeldBy ∨
      stage.isInside = false ∧ next.isInside = true ∧ c.gateHeldBy = none ∧
        d.gateHeldBy = some op ∨
      stage.isInside = true ∧ next.isInside = false ∧ d.gateHeldBy = none := by
  cases h with
  | begin e begins => exact .inl ⟨begins.isInside, begins.frame.1⟩
  | measure => exact .inl ⟨(unburdened_nextAttempt c _).isInside, rfl⟩
  | retry => exact .inl ⟨(unburdened_nextAttempt c _).isInside, rfl⟩
  | rollBack => exact .inr (.inr ⟨rfl, (unburdened_failed _ _).isInside, rfl⟩)
  | commit => exact .inr (.inr ⟨rfl, (unburdened_succeeded _).isInside, rfl⟩)
  | enter hgate => exact .inr (.inl ⟨rfl, rfl, hgate, rfl⟩)
  | refuse => exact .inl ⟨isInside_superseded _, rfl⟩
  | enterToStop hgate => exact .inr (.inl ⟨rfl, rfl, hgate, rfl⟩)
  | cancel hstage => cases hstage <;> exact .inl ⟨isInside_superseded _, rfl⟩
  | resolveFails => exact .inl ⟨(unburdened_failed _ _).isInside, rfl⟩
  | halted => exact .inr (.inr ⟨rfl, rfl, rfl⟩)
  | pauseSet hstage => cases hstage <;> exact .inl ⟨rfl, rfl⟩
  | pauseKept hstage => cases hstage <;> exact .inl ⟨rfl, rfl⟩
  | _ => exact .inl ⟨rfl, rfl⟩

/-- What a step does to the numbers of cascades and tokens. -/
inductive Numbering (c d : Controller) (stage next : Stage) : Prop
  | keeps (htoken : d.token = c.token) (hcount : d.state.cascadeCount = c.state.cascadeCount)
      (hnext : next.cascade? = stage.cascade?)
  | opens (ended : Option Nat) (hended : ended = none ∨ ended = c.state.serial?)
      (htoken : d.token = c.token + 1)
      (hcount : d.state.cascadeCount = c.state.cascadeCount + 1) (hstage : stage.cascade? = none)
      (hnext : next.cascade? = some ⟨c.state.cascadeCount + 1, c.token + 1, ended⟩)
      (hbegin : ∃ request, stage = .begin request)
  | cancels (htoken : d.token = c.token + 1)
      (hcount : d.state.cascadeCount = c.state.cascadeCount) (hstage : stage.cascade? = none)
      (hnext : next.cascade? = none) (hstops : ∃ detaching, next = .stopAdmission detaching)
  /-- The last step of a cascade closes it. -/
  | closes {cascade : Cascade} {result : Except Error PlayOutcome} {report : Option String}
      (hstage : stage = .close cascade result report)
      (hd : d = c.update (·.closeCascade cascade)) (hnext : next = .finished (.outcome result))

theorem retire_frame (s : PlaybackState) :
    s.retire.record = none ∧ s.retire.cascadeCount = s.cascadeCount := by
  obtain ⟨queue, -, heq⟩ := s.retire_eq
  rw [heq]
  exact ⟨rfl, rfl⟩

theorem closeCascade_count (s : PlaybackState) (cascade : Cascade) :
    (s.closeCascade cascade).cascadeCount = s.cascadeCount := by
  obtain ⟨record, queue, -, -, heq⟩ := s.closeCascade_eq cascade
  rw [heq]

theorem closeCascade_record (s : PlaybackState) (cascade : Cascade) :
    (s.closeCascade cascade).record = s.record ∨ (s.closeCascade cascade).record = none := by
  obtain ⟨record, queue, hrecord, -, heq⟩ := s.closeCascade_eq cascade
  rw [heq]
  exact hrecord

theorem closeCascade_record_of_ended {s : PlaybackState} {cascade : Cascade}
    (h : cascade.ended = none) : (s.closeCascade cascade).record = s.record := by
  rcases s.closeCascade_cases cascade with ⟨hended, -⟩ | ⟨-, heq⟩
  · rw [h] at hended
    exact absurd hended.1 (by simp)
  · rw [heq]

theorem items_retire (s : PlaybackState) : s.retire.queue.items = s.queue.items := by
  obtain ⟨queue, hitems, heq⟩ := s.retire_eq
  rw [heq]
  exact hitems

theorem items_closeCascade (s : PlaybackState) (cascade : Cascade) :
    (s.closeCascade cascade).queue.items = s.queue.items := by
  obtain ⟨record, queue, -, hitems, heq⟩ := s.closeCascade_eq cascade
  rw [heq]
  exact hitems

theorem giveBack_frame (s : PlaybackState) (track : Track) (generation : Nat) :
    (s.giveBack track generation).record = s.record ∧
      (s.giveBack track generation).cascadeCount = s.cascadeCount := by
  obtain ⟨queue, heq⟩ := s.giveBack_eq track generation
  rw [heq]
  exact ⟨rfl, rfl⟩

theorem takeNext?_frame {s state : PlaybackState} {track : Track}
    (h : s.takeNext? = some (track, state)) :
    state.record = s.record ∧ state.cascadeCount = s.cascadeCount := by
  obtain ⟨queue, mode, words, rfl⟩ := PlaybackState.takeNext?_eq h
  exact ⟨rfl, rfl⟩

theorem Transition.numbering (h : Transition c op stage signal d next) :
    Numbering c d stage next := by
  cases h with
  | begin e begins =>
    cases begins with
    | @opens d ended next frame hended hnext =>
      refine .opens ended hended ?_ ?_ rfl ?_ ⟨_, rfl⟩
      · exact congrArg (· + 1) frame.token
      · exact congrArg (· + 1) frame.cascadeCount
      · have hcascade : (d.openCascade ended).2 =
            ⟨c.state.cascadeCount + 1, c.token + 1, ended⟩ := by
          simp [openCascade, frame.token, frame.cascadeCount]
        obtain rfl | rfl | ⟨_, _, rfl⟩ := hnext <;> exact congrArg some hcascade
    | cancels => exact .cancels rfl rfl rfl rfl ⟨_, rfl⟩
    | holds frame hnext =>
      obtain rfl | ⟨_, rfl⟩ | ⟨_, rfl⟩ := hnext <;>
        exact .keeps frame.token frame.cascadeCount rfl
    | keeps frame hnext =>
      obtain rfl | rfl | ⟨_, rfl⟩ := hnext <;>
        exact .keeps frame.token frame.cascadeCount rfl
  | measure hcascade =>
    exact .keeps rfl rfl ((unburdened_nextAttempt c _).cascade?.trans (congrArg some hcascade))
  | retry => exact .keeps rfl rfl (unburdened_nextAttempt c _).cascade?
  | take h => exact .keeps rfl (takeNext?_frame h).2 rfl
  | takeNothing => exact .keeps rfl (closeCascade_count _ _) rfl
  | giveBack => exact .keeps rfl (giveBack_frame _ _ _).2 rfl
  | settle => exact .keeps rfl (closeCascade_count _ _) rfl
  | close => exact .closes rfl rfl rfl
  | rollBack => exact .keeps rfl rfl (unburdened_failed _ _).cascade?
  | commit => exact .keeps rfl rfl (unburdened_succeeded _).cascade?
  | cancelPending => exact .cancels rfl rfl rfl rfl ⟨_, rfl⟩
  | retire => exact .keeps rfl (retire_frame _).2 rfl
  | refuse => exact .keeps rfl rfl (cascade?_superseded _)
  | cancel hstage => cases hstage <;> exact .keeps rfl rfl (cascade?_superseded _)
  | resolveFails => exact .keeps rfl rfl (unburdened_failed _ _).cascade?
  | pauseSet hstage => cases hstage <;> exact .keeps rfl rfl rfl
  | pauseKept hstage => cases hstage <;> exact .keeps rfl rfl rfl
  | _ => exact .keeps rfl rfl rfl

/-- A new serial is given to an operation that enters the gate with the newest token, and to
nobody else. -/
theorem Transition.numbersStart (h : Transition c op stage signal d next) :
    d.serial = c.serial ∧ next.start? = none ∨
      d.serial = c.serial + 1 ∧ next.start? = some (c.serial + 1) ∧ stage.start? = none ∧
        c.gateHeldBy = none ∧ ∃ cascade, stage.cascade? = some cascade ∧ cascade.token = c.token := by
  cases h with
  | begin e begins => exact .inl ⟨begins.frame.2.1, Stage.start?_eq_none begins.isInside⟩
  | measure => exact .inl ⟨rfl, Stage.start?_eq_none (unburdened_nextAttempt c _).isInside⟩
  | retry => exact .inl ⟨rfl, Stage.start?_eq_none (unburdened_nextAttempt c _).isInside⟩
  | rollBack => exact .inl ⟨rfl, Stage.start?_eq_none (unburdened_failed _ _).isInside⟩
  | commit => exact .inl ⟨rfl, Stage.start?_eq_none (unburdened_succeeded _).isInside⟩
  | enter hgate htoken => exact .inr ⟨rfl, rfl, rfl, hgate, _, rfl, htoken⟩
  | refuse => exact .inl ⟨rfl, Stage.start?_eq_none (isInside_superseded _)⟩
  | cancel hstage => exact .inl ⟨rfl, Stage.start?_eq_none (isInside_superseded _)⟩
  | resolveFails => exact .inl ⟨rfl, Stage.start?_eq_none (unburdened_failed _ _).isInside⟩
  | _ => exact .inl ⟨rfl, rfl⟩

theorem record_setPaused {α : Type} (s : PlaybackState) (paused : Bool)
    (f : PlaybackRecord → α) (hf : ∀ r paused, f { r with paused } = f r) :
    (s.setPaused paused).record.map f = s.record.map f := by
  unfold PlaybackState.setPaused
  cases s.record with
  | none => rfl
  | some record => exact congrArg some (hf record paused)

/-- Once the cascade that the end of a track has opened is closed, that track is not the
current one. -/
theorem serial?_closeCascade_ne {cascade : Cascade} {n : Nat} (h : cascade.ended = some n)
    (s : PlaybackState) : (s.closeCascade cascade).serial? ≠ some n := by
  rcases s.closeCascade_cases cascade with ⟨-, heq⟩ | ⟨hne, heq⟩
  · rw [heq]
    simp [PlaybackState.serial?, (retire_frame _).1]
  · rw [heq, ← h]
    exact fun hserial => hne ⟨by simp [h], hserial⟩

/-- What a step does to the record of the current track and to a record that was displaced. -/
inductive RecordMove (c d : Controller) (stage next : Stage) : Prop
  | keeps (hrecord : d.state.serial? = c.state.serial?)
      (hdisplaced : next.displaced? = stage.displaced?)
      (hlaunched : next.isLaunched = stage.isLaunched)
      (htrack : d.state.record.map PlaybackRecord.track =
        c.state.record.map PlaybackRecord.track)
  | retires (hrecord : d.state.serial? = none) (hdisplaced : next.displaced? = none)
      (hlaunched : next.isLaunched = false) (hstage : stage.isLaunched = false)
  /-- The record of the track that is about to start takes the place of the current one. -/
  | installs {serial : Nat} (hstage : stage.start? = some serial)
      (hrecord : d.state.serial? = some serial) (hdisplaced : next.displaced? = c.state.record)
      (hlaunched : next.isLaunched = true)
  /-- A start has failed, and the record that it displaced comes back. -/
  | rollsBack {l : Launch} {displaced : Option PlaybackRecord} {e : Error}
      (hstage : stage = .rollBack l displaced e) (hrecord : d.state.record = displaced)
      (hdisplaced : next.displaced? = none) (hlaunched : next.isLaunched = false)
  | commits (hstage : stage.isLaunched = true) (hrecord : d.state.serial? = c.state.serial?)
      (hdisplaced : next.displaced? = none) (hlaunched : next.isLaunched = false)

theorem recordMove_of_record_eq (hrecord : d.state.record = c.state.record)
    (hdisplaced : next.displaced? = stage.displaced?)
    (hlaunched : next.isLaunched = stage.isLaunched) : RecordMove c d stage next :=
  .keeps (congrArg (Option.map _) hrecord) hdisplaced hlaunched (congrArg (Option.map _) hrecord)

theorem recordMove_closeCascade {cascade : Cascade} (hd : d = c.update (·.closeCascade cascade))
    (hstage : stage.displaced? = none ∧ stage.isLaunched = false)
    (hnext : next.displaced? = none ∧ next.isLaunched = false) :
    RecordMove c d stage next := by
  subst hd
  rcases closeCascade_record c.state cascade with h | h
  · exact recordMove_of_record_eq h (hnext.1.trans hstage.1.symm) (hnext.2.trans hstage.2.symm)
  · exact .retires (congrArg (Option.map _) h) hnext.1 hnext.2 hstage.2

theorem recordMove_of_outside (hrecord : d.state.record = c.state.record)
    (hstage : stage.isInside = false) (hnext : next.isInside = false) :
    RecordMove c d stage next :=
  recordMove_of_record_eq hrecord
    ((Stage.displaced?_eq_none hnext).trans (Stage.displaced?_eq_none hstage).symm)
    ((Stage.isLaunched_eq_false hnext).trans (Stage.isLaunched_eq_false hstage).symm)

theorem Transition.recordMove (h : Transition c op stage signal d next) :
    RecordMove c d stage next := by
  cases h with
  | begin e begins => exact recordMove_of_outside begins.frame.2.2 rfl begins.isInside
  | measure => exact recordMove_of_outside rfl rfl (unburdened_nextAttempt c _).isInside
  | retry => exact recordMove_of_outside rfl rfl (unburdened_nextAttempt c _).isInside
  | take h => exact recordMove_of_record_eq (takeNext?_frame h).1 rfl rfl
  | takeNothing => exact recordMove_closeCascade rfl ⟨rfl, rfl⟩ ⟨rfl, rfl⟩
  | giveBack => exact recordMove_of_record_eq (giveBack_frame _ _ _).1 rfl rfl
  | settle => exact recordMove_closeCascade rfl ⟨rfl, rfl⟩ ⟨rfl, rfl⟩
  | close => exact recordMove_closeCascade rfl ⟨rfl, rfl⟩ ⟨rfl, rfl⟩
  | install => exact .installs rfl rfl rfl rfl
  | rollBack =>
    refine .rollsBack rfl rfl ?_ ?_
    · exact Stage.displaced?_eq_none (unburdened_failed _ _).isInside
    · exact Stage.isLaunched_eq_false (unburdened_failed _ _).isInside
  | commit =>
    refine .commits rfl rfl ?_ ?_
    · exact Stage.displaced?_eq_none (unburdened_succeeded _).isInside
    · exact Stage.isLaunched_eq_false (unburdened_succeeded _).isInside
  | retire => exact .retires (congrArg (Option.map _) (retire_frame _).1) rfl rfl rfl
  | refuse => exact recordMove_of_outside rfl rfl (isInside_superseded _)
  | cancel hstage =>
    cases hstage <;> exact recordMove_of_outside rfl rfl (isInside_superseded _)
  | resolveFails => exact recordMove_of_outside rfl rfl (unburdened_failed _ _).isInside
  | pauseSet hstage =>
    cases hstage <;>
      exact .keeps (record_setPaused _ _ _ fun _ _ => rfl) rfl rfl
        (record_setPaused _ _ _ fun _ _ => rfl)
  | pauseKept hstage => cases hstage <;> exact recordMove_of_record_eq rfl rfl rfl
  | _ => exact recordMove_of_record_eq rfl rfl rfl

/-- The current record has the serial, or one that was displaced, or the start that is about to be
made. -/
def InUse (c : Controller) (stage : Stage) (n : Nat) : Prop :=
  c.state.serial? = some n ∨ (∃ r, stage.displaced? = some r ∧ r.serial = n) ∨
    stage.start? = some n

theorem inUse_iff_of_outside {n : Nat} (hstage : stage.isInside = false) :
    InUse c stage n ↔ c.state.serial? = some n := by
  simp [InUse, Stage.displaced?_eq_none hstage, Stage.start?_eq_none hstage]

/-- A step brings no serial into use but the next one. -/
theorem Transition.inUse {n : Nat} (h : Transition c op stage signal d next)
    (hn : InUse d next n) : InUse c stage n ∨ n = c.serial + 1 ∧ d.serial = c.serial + 1 := by
  rcases hn with hserial | ⟨r, hr, hrn⟩ | hstart
  · left
    cases h.recordMove with
    | keeps hrecord => exact .inl (hrecord.symm.trans hserial)
    | retires hrecord => cases hrecord.symm.trans hserial
    | installs hstage hrecord =>
      obtain rfl := Option.some.inj (hrecord.symm.trans hserial)
      exact .inr (.inr hstage)
    | rollsBack hstage hrecord =>
      subst hstage
      obtain ⟨r, hr, hrn⟩ := Option.map_eq_some_iff.mp hserial
      exact .inr (.inl ⟨r, hrecord.symm.trans hr, hrn⟩)
    | commits _ hrecord => exact .inl (hrecord.symm.trans hserial)
  · left
    cases h.recordMove with
    | keeps _ hdisplaced => exact .inr (.inl ⟨r, hdisplaced.symm.trans hr, hrn⟩)
    | installs _ _ hdisplaced =>
      exact .inl (Option.map_eq_some_iff.mpr ⟨r, hdisplaced.symm.trans hr, hrn⟩)
    | retires _ hdisplaced => cases hdisplaced.symm.trans hr
    | rollsBack _ _ hdisplaced => cases hdisplaced.symm.trans hr
    | commits _ _ hdisplaced => cases hdisplaced.symm.trans hr
  · rcases h.numbersStart with ⟨-, hnone⟩ | ⟨hnext, hsome, -⟩
    · cases hnone.symm.trans hstart
    · exact .inr ⟨Option.some.inj (hstart.symm.trans hsome), hnext⟩

/-! ## What a request does to the queue -/

theorem beginIfIdle_queue (c : Controller) : c.beginIfIdle.1.state.queue = c.state.queue := by
  unfold beginIfIdle
  split <;> rfl

theorem signalled_queue (c : Controller) (serial : Nat) (told : Track → List PlaybackEvent) :
    (c.signalled serial told).1.state.queue = c.state.queue := by
  unfold signalled
  split
  · split <;> rfl
  · rfl

theorem begin_queue (c : Controller) (op : Nat) (request : Request) :
    (c.begin op request).1.state.queue = request.queueAfter c.state := by
  cases request with
  | play =>
    simp only [begin]
    split
    · split <;> rfl
    · rfl
  | enqueue track => exact beginIfIdle_queue _
  | addPlaylist tracks => exact beginIfIdle_queue _
  | stop bySystem => cases bySystem <;> rfl
  | ended serial => exact signalled_queue c serial _
  | failed serial reason => exact signalled_queue c serial _
  | togglePause =>
    simp only [begin]
    split <;> rfl
  | presence event roster =>
    simp only [begin]
    split
    · split <;> rfl
    · rfl
  | exchange i j =>
    simp only [begin, Request.queueAfter]
    split
    · next hexchange => rw [hexchange]; rfl
    · next hexchange => rw [hexchange]; rfl
  | remove index =>
    simp only [begin, Request.queueAfter]
    split
    · next hremove => rw [hremove]; rfl
    · next hremove => rw [hremove]; rfl
  | restore snapshot how => cases how <;> rfl
  | _ => rfl

end Controller

end Jukebox
