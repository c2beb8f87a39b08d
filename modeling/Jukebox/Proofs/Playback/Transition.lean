import Jukebox.Proofs.Playback.Run

/-!
# What one step of an operation can do

`Controller.step?` is one function for all stages.  Here its results are sorted: a step takes
a stage to the next in one of the ways that `Controller.Transition` lists, each with its guard
and with the controller that it leaves behind.  All invariants are derived from this list.

The first critical section of a request may do many things to the queue, but to the record,
the cascades, the lock and the gate only what `Controller.Begins` says.
-/

namespace Jukebox

/-! ## What a stage carries -/

namespace Stage

/-- The cascade on whose behalf an operation acts. -/
def cascade? : Stage → Option Cascade
  | .measure cascade | .giveBack cascade _ _ | .settle cascade _ | .close cascade _ _
  | .takeBack cascade _ | .putBack cascade _ => some cascade
  | .take search | .reported search => some search.cascade
  | .ask l | .resolving l | .admission l _ | .install l _ _ | .starting l _ _ _
  | .pausing l _ _ | .rollBack l _ _ | .commit l _ _ => some l.purpose.cascade
  | .begin _ | .cancelPending | .stopAdmission _ | .retire _ | .halting _ | .resuming
  | .toggling _ | .adjusting _ | .finished _ => none

/-- The record that a start has displaced and may bring back. -/
def displaced? : Stage → Option PlaybackRecord
  | .starting _ _ displaced _ | .pausing _ _ displaced | .rollBack _ displaced _
  | .commit _ _ displaced => displaced
  | _ => none

/-- The operation is inside the gate. -/
def isInside : Stage → Bool
  | .install _ _ _ | .starting _ _ _ _ | .pausing _ _ _ | .rollBack _ _ _ | .commit _ _ _
  | .retire _ | .halting _ => true
  | _ => false

/-- The start has made its record, and its outcome is open. -/
def isLaunched : Stage → Bool
  | .starting _ _ _ _ | .pausing _ _ _ | .rollBack _ _ _ | .commit _ _ _ => true
  | _ => false

end Stage

/-- Closing a cascade: if the end of the current track has opened it, that track goes to the
history. -/
theorem PlaybackState.closeCascade_cases (s : PlaybackState) (cascade : Cascade) :
    let closed : PlaybackState :=
      { s with cascade := if s.cascade = some cascade.id then none else s.cascade }
    (cascade.ended.isSome ∧ s.serial? = cascade.ended) ∧
        s.closeCascade cascade = closed.retire ∨
      ¬(cascade.ended.isSome ∧ s.serial? = cascade.ended) ∧ s.closeCascade cascade = closed := by
  by_cases hopen : s.cascade = some cascade.id
  · by_cases hended : cascade.ended.isSome ∧ s.serial? = cascade.ended
    · left
      refine ⟨hended, ?_⟩
      have hserial : { s with cascade := none }.serial? = cascade.ended := hended.2
      simp only [closeCascade, hopen, if_true, hended.1, hserial, beq_self_eq_true,
        Bool.true_and]
    · right
      refine ⟨hended, ?_⟩
      have hserial : { s with cascade := none }.serial? = s.serial? := rfl
      simp only [closeCascade, hopen, if_true, hserial]
      rw [if_neg (by simpa using hended)]
  · by_cases hended : cascade.ended.isSome ∧ s.serial? = cascade.ended
    · left
      refine ⟨hended, ?_⟩
      simp only [closeCascade, hopen, if_false, hended.1, hended.2, beq_self_eq_true,
        Bool.true_and, if_true]
    · right
      refine ⟨hended, ?_⟩
      simp only [closeCascade, hopen, if_false]
      rw [if_neg (by simpa using hended)]

/-! What these write to the state; the rest stays. -/

theorem PlaybackState.retire_eq (s : PlaybackState) :
    ∃ queue : Queue, queue.items = s.queue.items ∧
      s.retire = { s with record := none, queue } := by
  unfold retire
  split
  · next record h => exact ⟨s.queue.remember record.track, rfl, rfl⟩
  · next h =>
    refine ⟨s.queue, rfl, ?_⟩
    rw [← h]

theorem PlaybackState.closeCascade_eq (s : PlaybackState) (cascade : Cascade) :
    ∃ (record : Option PlaybackRecord) (queue : Queue),
      (record = s.record ∨ record = none) ∧ queue.items = s.queue.items ∧
        s.closeCascade cascade =
          { s with
            record, queue
            cascade := if s.cascade = some cascade.id then none else s.cascade } := by
  rcases s.closeCascade_cases cascade with ⟨-, heq⟩ | ⟨-, heq⟩
  · obtain ⟨queue, hitems, hretire⟩ := PlaybackState.retire_eq
      { s with cascade := if s.cascade = some cascade.id then none else s.cascade }
    exact ⟨none, queue, .inr rfl, hitems, heq.trans hretire⟩
  · exact ⟨s.record, s.queue, .inl rfl, rfl, heq⟩

theorem PlaybackState.giveBack_eq (s : PlaybackState) (track : Track) (generation : Nat) :
    ∃ queue : Queue, s.giveBack track generation = { s with queue } := by
  unfold giveBack
  split
  · exact ⟨_, rfl⟩
  · exact ⟨s.queue, rfl⟩

theorem PlaybackState.takeNext?_eq {s state : PlaybackState} {track : Track}
    (h : s.takeNext? = some (track, state)) :
    ∃ queue mode words, state = { s with queue, mode, words } := by
  obtain ⟨taken, -, htaken⟩ := Option.map_eq_some_iff.mp h
  cases htaken
  exact ⟨taken.queue, taken.state, taken.words, rfl⟩

theorem PlaybackState.setPlaylist_frame (s : PlaybackState) (playlist : PlaylistMeta)
    (tracks : List Track) :
    (s.setPlaylist playlist tracks).record = s.record ∧
      (s.setPlaylist playlist tracks).cascade = s.cascade ∧
      (s.setPlaylist playlist tracks).cascadeCount = s.cascadeCount := by
  by_cases h : s.mode.mode.isRandom = true
  · simp [setPlaylist, h, shuffle]
  · simp [setPlaylist, h]

namespace Controller

/-! ## The next attempt, and the ends of a start -/

theorem nextAttempt_cases (c : Controller) (search : Search) :
    (c.nextAttempt search).1 = .take search ∧ search.cascade.token = c.token ∨
      (c.nextAttempt search).1 = .close search.cascade (.ok .superseded) none ∧
        search.cascade.token ≠ c.token ∨
      (c.nextAttempt search).1 = .settle search.cascade .exhausted := by
  unfold nextAttempt
  by_cases hattempt : search.attempt < search.budget
  · by_cases htoken : search.cascade.token = c.token
    · simp [hattempt, isCancelled, htoken]
    · simp [hattempt, isCancelled, htoken]
  · simp [hattempt, endSearch]

/-- The stages at which an operation that belongs to a cascade holds nothing. -/
inductive Unburdened (cascade : Cascade) : Stage → Prop
  | take (search : Search) (h : search.cascade = cascade) : Unburdened cascade (.take search)
  | reported (search : Search) (h : search.cascade = cascade) :
      Unburdened cascade (.reported search)
  | takeBack (attempts : Nat) : Unburdened cascade (.takeBack cascade attempts)
  | settle (outcome : PlayOutcome) : Unburdened cascade (.settle cascade outcome)
  | close (result : Except Error PlayOutcome) (report : Option String) :
      Unburdened cascade (.close cascade result report)

theorem unburdened_nextAttempt (c : Controller) (search : Search) :
    Unburdened search.cascade (c.nextAttempt search).1 := by
  rcases nextAttempt_cases c search with ⟨h, -⟩ | ⟨h, -⟩ | h
  · rw [h]
    exact .take search rfl
  · rw [h]
    exact .close _ _
  · rw [h]
    exact .settle _

theorem unburdened_failed (l : Launch) (e : Error) :
    Unburdened l.purpose.cascade (failed l e).1 := by
  unfold failed
  cases l.purpose with
  | search s generation => exact .reported _ rfl
  | request cascade => exact .close _ _
  | goBack cascade attempts =>
    by_cases h : attempts < maxPreviousAttempts
    · simpa [h, Purpose.cascade] using Unburdened.takeBack attempts
    · simpa [h, Purpose.cascade] using Unburdened.close _ _

theorem unburdened_succeeded (l : Launch) :
    Unburdened l.purpose.cascade (succeeded l).1 := by
  unfold succeeded
  cases l.purpose with
  | search s generation => exact .settle _
  | request cascade => exact .close _ _
  | goBack cascade attempts => exact .close _ _

/-! ## The first critical section of a request -/

/-- Two controllers between which at most the queue, the mode, the listeners, the playlist,
the random words, the generation and the account differ. -/
structure SameFrame (c d : Controller) : Prop where
  record : d.state.record = c.state.record
  cascade : d.state.cascade = c.state.cascade
  cascadeCount : d.state.cascadeCount = c.state.cascadeCount
  token : d.token = c.token
  serial : d.serial = c.serial
  lockedBy : d.lockedBy = c.lockedBy
  gateHeldBy : d.gateHeldBy = c.gateHeldBy

theorem SameFrame.refl (c : Controller) : SameFrame c c := ⟨rfl, rfl, rfl, rfl, rfl, rfl, rfl⟩

/-- What the first critical section of a request does to the record, the cascades, the lock
and the gate, and where it leads. -/
inductive Begins (c : Controller) (op : Nat) : Controller → Stage → Prop
  /-- A cascade is opened, by the end of a track only if that track is the current one. -/
  | opens {d : Controller} {ended : Option Nat} {next : Stage} (frame : SameFrame c d)
      (hended : ended = none ∨ ended = c.state.serial?)
      (hnext : next = .measure (d.openCascade ended).2 ∨
        next = .takeBack (d.openCascade ended).2 0 ∨
        ∃ track offset, next = .ask ⟨track, offset, 0, .request (d.openCascade ended).2⟩) :
      Begins c op (d.openCascade ended).1 next
  | cancels : Begins c op c.cancelPending (.stopAdmission false)
  | holds {next : Stage} {d : Controller} (frame : SameFrame c d)
      (hnext : next = .resuming ∨ (∃ paused, next = .toggling paused) ∨
        ∃ paused, next = .adjusting paused) :
      Begins c op { d with lockedBy := some op } next
  | keeps {d : Controller} {next : Stage} (frame : SameFrame c d)
      (hnext : next = .begin .playNext ∨ next = .cancelPending ∨
        ∃ answer, next = .finished answer) : Begins c op d next

theorem begins_answer {c d : Controller} (op : Nat) (frame : SameFrame c d) (a : Answer) :
    Begins c op (d.answer a).1 (d.answer a).2.1 :=
  .keeps frame (.inr (.inr ⟨a, rfl⟩))

theorem begins_beginCascade {c d : Controller} (op : Nat) {ended : Option Nat}
    (frame : SameFrame c d) (hended : ended = none ∨ ended = c.state.serial?) :
    Begins c op (d.beginCascade ended).1 (d.beginCascade ended).2 :=
  .opens frame hended (.inl rfl)

theorem begins_beginIfIdle {c d : Controller} (op : Nat) (frame : SameFrame c d) :
    Begins c op d.beginIfIdle.1 d.beginIfIdle.2 := by
  unfold beginIfIdle
  split
  · exact begins_beginCascade op frame (.inl rfl)
  · exact .keeps frame (.inr (.inr ⟨_, rfl⟩))

theorem begins_signalled (c : Controller) (op serial : Nat) (told : Track → List PlaybackEvent) :
    Begins c op (c.signalled serial told).1 (c.signalled serial told).2.1 := by
  unfold signalled
  cases hrecord : c.state.record with
  | none => exact begins_answer op (.refl c) _
  | some record =>
    by_cases hserial : record.serial = serial
    · have hended : some serial = c.state.serial? := by
        simp [PlaybackState.serial?, hrecord, hserial]
      simpa only [hserial, if_true] using begins_beginCascade op (.refl c) (.inr hended)
    · simpa only [hserial, if_false] using begins_answer op (.refl c) _

theorem begins_play (c : Controller) (op : Nat) :
    Begins c op (c.begin op .play).1 (c.begin op .play).2.1 := by
  simp only [begin]
  cases hrecord : c.state.record with
  | none => exact .keeps (.refl c) (.inl rfl)
  | some record =>
    dsimp only
    split
    · exact .holds (.refl c) (.inl rfl)
    · exact begins_answer op (.refl c) _

theorem begins_presence (c : Controller) (op : Nat) (event : PresenceEvent) (roster : Roster) :
    Begins c op (c.begin op (.presence event roster)).1
      (c.begin op (.presence event roster)).2.1 := by
  have frame : SameFrame c (c.update fun s =>
      { s with presence := (c.state.presence.apply event roster).1 }) :=
    ⟨rfl, rfl, rfl, rfl, rfl, rfl, rfl⟩
  simp only [begin]
  split
  next paused record _ _ =>
    split
    · exact begins_answer op frame _
    · exact .holds frame (.inr (.inr ⟨paused, rfl⟩))
  next => exact begins_answer op frame _

theorem begins_begin (c : Controller) (op : Nat) (request : Request) :
    Begins c op (c.begin op request).1 (c.begin op request).2.1 := by
  have frame : SameFrame c c := .refl c
  cases request with
  | playNext => exact begins_beginCascade op frame (.inl rfl)
  | play => exact begins_play c op
  | playTrack track offset => exact .opens frame (.inl rfl) (.inr (.inr ⟨track, offset, rfl⟩))
  | enqueue track => exact begins_beginIfIdle op ⟨rfl, rfl, rfl, rfl, rfl, rfl, rfl⟩
  | previous => exact .opens frame (.inl rfl) (.inr (.inl rfl))
  | stop bySystem =>
    cases bySystem with
    | true => exact begins_beginCascade op frame (.inr rfl)
    | false => exact .cancels
  | ended serial => exact begins_signalled c op serial _
  | failed serial reason => exact begins_signalled c op serial _
  | togglePause =>
    simp only [begin]
    cases hrecord : c.state.record with
    | none => exact begins_answer op frame _
    | some record => exact .holds frame (.inr (.inl ⟨_, rfl⟩))
  | presence event roster => exact begins_presence c op event roster
  | detach => exact .keeps ⟨rfl, rfl, rfl, rfl, rfl, rfl, rfl⟩ (.inr (.inl rfl))
  | exchange i j =>
    simp only [begin]
    split
    · exact begins_answer op (by constructor <;> rfl) _
    · exact begins_answer op frame _
  | remove index =>
    simp only [begin]
    split
    · exact begins_answer op (by constructor <;> rfl) _
    · exact begins_answer op frame _
  | restore snapshot how =>
    cases how with
    | append => exact begins_answer op (by constructor <;> rfl) _
    | replace => exact begins_answer op (by constructor <;> rfl) _
  | setPlaylist playlist tracks =>
    obtain ⟨hrecord, hcascade, hcount⟩ := c.state.setPlaylist_frame playlist tracks
    exact begins_beginCascade op ⟨hrecord, hcascade, hcount, rfl, rfl, rfl, rfl⟩ (.inl rfl)
  | addPlaylist tracks => exact begins_beginIfIdle op ⟨rfl, rfl, rfl, rfl, rfl, rfl, rfl⟩
  | _ => exact begins_answer op (by constructor <;> rfl) _

/-! ## All steps -/

/-- The operations that keep the lock while they wait for the player. -/
inductive KeepsLock : Stage → Prop
  | resuming : KeepsLock .resuming
  | toggling (paused : Bool) : KeepsLock (.toggling paused)
  | adjusting (paused : Bool) : KeepsLock (.adjusting paused)

/-- The stages that the loss of the token interrupts. -/
inductive Interruptible (l : Launch) : Stage → Prop
  | ask : Interruptible l (.ask l)
  | resolving : Interruptible l (.resolving l)

/-- The ways in which an operation gets from a stage to the next: the signal on which it does,
and the controller that it leaves behind. -/
inductive Transition (c : Controller) (op : Nat) :
    Stage → Signal → Controller → Stage → Prop
  | begin {request : Request} {d : Controller} {next : Stage} {told : List PlaybackEvent}
      (e : c.begin op request = (d, next, told)) (begins : Begins c op d next) :
      Transition c op (.begin request) .go d next
  | measure {cascade : Cascade} {search : Search} (hcascade : search.cascade = cascade)
      (hbudget : search.attempt < search.budget) :
      Transition c op (.measure cascade) .go c (c.nextAttempt search).1
  | take {search : Search} {track : Track} {state : PlaybackState}
      (h : c.state.takeNext? = some (track, state)) :
      Transition c op (.take search) .go { c with state }
        (.ask ⟨track, none, search.attempt, .search search c.state.generation⟩)
  | retry {search : Search} :
      Transition c op (.reported search) .go c (c.nextAttempt search).1
  | takeNothing {search : Search} (h : c.state.takeNext? = none) :
      Transition c op (.take search) .go (c.update (·.closeCascade search.cascade))
        (.settle search.cascade .queueEmpty)
  | giveBack {cascade : Cascade} {track : Track} {generation : Nat} :
      Transition c op (.giveBack cascade track generation) .go
        (c.update (·.giveBack track generation)) (.close cascade (.ok .superseded) none)
  | settle {cascade : Cascade} {outcome : PlayOutcome} (final : PlayOutcome) :
      Transition c op (.settle cascade outcome) .go (c.update (·.closeCascade cascade))
        (.close cascade (.ok final) none)
  | close {cascade : Cascade} {result : Except Error PlayOutcome} {report : Option String} :
      Transition c op (.close cascade result report) .go (c.update (·.closeCascade cascade))
        (.finished (.outcome result))
  | takeBack {cascade : Cascade} {attempts : Nat} {track : Track} {queue : Queue}
      (h : c.state.queue.takeBack? = some (track, queue)) :
      Transition c op (.takeBack cascade attempts) .go (c.update fun s => { s with queue })
        (.ask ⟨track, none, attempts, .goBack cascade (attempts + 1)⟩)
  | takeBackNothing {cascade : Cascade} {attempts : Nat} (e : Error)
      (h : c.state.queue.takeBack? = none) :
      Transition c op (.takeBack cascade attempts) .go c (.close cascade (.error e) none)
  | putBack {cascade : Cascade} {track : Track} :
      Transition c op (.putBack cascade track) .go
        (c.update fun s => { s with queue := s.queue.remember track })
        (.close cascade (.ok .superseded) none)
  | install {l : Launch} {r : ResolvedTrack} {serial : Nat} :
      Transition c op (.install l r serial) .go
        (c.update fun s => { s with record := some (c.state.newRecord r l.retries serial) })
        (.starting l r c.state.record (c.state.newRecord r l.retries serial).paused)
  | rollBack {l : Launch} {displaced : Option PlaybackRecord} {e : Error} :
      Transition c op (.rollBack l displaced e) .go
        { c.update fun s => { s with record := displaced } with gateHeldBy := none }
        (failed l e).1
  | commit {l : Launch} {r : ResolvedTrack} {displaced : Option PlaybackRecord} :
      Transition c op (.commit l r displaced) .go
        { c.update fun s =>
          { s with queue := displace l.purpose (s.queue.refresh r.track) displaced } with
          gateHeldBy := none }
        (succeeded l).1
  | cancelPending : Transition c op .cancelPending .go c.cancelPending (.stopAdmission true)
  | retire {detaching : Bool} :
      Transition c op (.retire detaching) .go (c.update PlaybackState.retire)
        (.halting detaching)
  | enter {l : Launch} {r : ResolvedTrack} (hgate : c.gateHeldBy = none)
      (htoken : l.token = c.token) :
      Transition c op (.admission l r) .go
        { c with serial := c.serial + 1, gateHeldBy := some op } (.install l r (c.serial + 1))
  | refuse {l : Launch} {r : ResolvedTrack} (htoken : l.token ≠ c.token) :
      Transition c op (.admission l r) .go c (superseded l)
  | enterToStop {detaching : Bool} (hgate : c.gateHeldBy = none) :
      Transition c op (.stopAdmission detaching) .go { c with gateHeldBy := some op }
        (.retire detaching)
  | askDirect {l : Launch} {r : ResolvedTrack} (h : l.direct? = some r) :
      Transition c op (.ask l) .go c (.admission l r)
  | askResolver {l : Launch} (h : l.direct? = none) :
      Transition c op (.ask l) .go c (.resolving l)
  | cancel {stage : Stage} {l : Launch} (hstage : Interruptible l stage)
      (htoken : l.token ≠ c.token) : Transition c op stage .cancelled c (superseded l)
  | resolve {l : Launch} {r : ResolvedTrack} :
      Transition c op (.resolving l) (.resolved (.ok (some r))) c (.admission l r)
  | resolveFails {l : Launch} {reply : Except Error (Option ResolvedTrack)}
      (hreply : ∀ r, reply ≠ .ok (some r)) (e : Error) :
      Transition c op (.resolving l) (.resolved reply) c (failed l e).1
  | startFails {l : Launch} {r : ResolvedTrack} {displaced : Option PlaybackRecord}
      {paused : Bool} {e : Error} :
      Transition c op (.starting l r displaced paused) (.played (.error e)) c
        (.rollBack l displaced e)
  | started {l : Launch} {r : ResolvedTrack} {displaced : Option PlaybackRecord} :
      Transition c op (.starting l r displaced false) (.played (.ok ())) c
        (.commit l r displaced)
  | startedAtRest {l : Launch} {r : ResolvedTrack} {displaced : Option PlaybackRecord} :
      Transition c op (.starting l r displaced true) (.played (.ok ())) c
        (.pausing l r displaced)
  | paused {l : Launch} {r : ResolvedTrack} {displaced : Option PlaybackRecord}
      {reply : Except Error Unit} :
      Transition c op (.pausing l r displaced) (.played reply) c (.commit l r displaced)
  | halted {detaching : Bool} {reply : Except Error Unit} :
      Transition c op (.halting detaching) (.played reply) { c with gateHeldBy := none }
        (.finished (stopAnswer detaching))
  | pauseSet {stage : Stage} (hstage : KeepsLock stage) (paused : Bool) (answer : Answer) :
      Transition c op stage (.played (.ok ()))
        { c.update (·.setPaused paused) with lockedBy := none } (.finished answer)
  | pauseKept {stage : Stage} (hstage : KeepsLock stage) {e : Error} (answer : Answer) :
      Transition c op stage (.played (.error e)) { c with lockedBy := none }
        (.finished answer)

variable {c d : Controller} {op : Nat} {stage next : Stage} {signal : Signal}
  {told : List PlaybackEvent}

theorem transition_of_locked (hneed : stage.need = .lock)
    (h : c.locked op stage = (d, next, told)) : Transition c op stage .go d next := by
  cases stage with
  | begin request =>
    have hbegins := begins_begin c op request
    have e : c.begin op request = (d, next, told) := h
    rw [e] at hbegins
    exact .begin e hbegins
  | measure cascade =>
    obtain ⟨rfl, rfl, rfl⟩ : _ = d ∧ _ = next ∧ _ = told := by
      simpa only [locked, Prod.mk.injEq] using h
    exact .measure rfl (Nat.le_max_right _ 1)
  | take search =>
    cases htake : c.state.takeNext? with
    | none =>
      obtain ⟨rfl, rfl, rfl⟩ : _ = d ∧ _ = next ∧ _ = told := by
        simpa only [locked, htake, endSearch, Prod.mk.injEq] using h
      exact .takeNothing htake
    | some taken =>
      obtain ⟨rfl, rfl, rfl⟩ : _ = d ∧ _ = next ∧ _ = told := by
        simpa only [locked, htake, Prod.mk.injEq] using h
      exact .take htake
  | takeBack cascade attempts =>
    cases htake : c.state.queue.takeBack? with
    | none =>
      obtain ⟨rfl, rfl, rfl⟩ : _ = d ∧ _ = next ∧ _ = told := by
        simpa only [locked, htake, Prod.mk.injEq] using h
      exact .takeBackNothing _ htake
    | some taken =>
      obtain ⟨rfl, rfl, rfl⟩ : _ = d ∧ _ = next ∧ _ = told := by
        simpa only [locked, htake, Prod.mk.injEq] using h
      exact .takeBack htake
  | settle cascade outcome =>
    obtain ⟨rfl, rfl, rfl⟩ : _ = d ∧ _ = next ∧ _ = told := by
      simpa only [locked, Prod.mk.injEq] using h
    exact .settle _
  | giveBack cascade track generation => cases h; exact .giveBack
  | close cascade result report => cases h; exact .close
  | putBack cascade track => cases h; exact .putBack
  | install l r serial => cases h; exact .install
  | rollBack l displaced e => cases h; exact .rollBack
  | commit l r displaced => cases h; exact .commit
  | cancelPending => cases h; exact .cancelPending
  | retire detaching => cases h; exact .retire
  | _ => simp [Stage.need] at hneed

theorem transition_of_admitted (hneed : stage.need = .gate) (hgate : c.gateHeldBy = none)
    (h : c.admitted op stage = (d, next, told)) : Transition c op stage .go d next := by
  cases stage with
  | admission l r =>
    by_cases htoken : l.token = c.token
    · simp only [admitted, isCancelled, htoken, bne_self_eq_false] at h
      cases h
      exact .enter hgate htoken
    · have hcancelled : c.isCancelled l.token = true := by simpa [isCancelled] using htoken
      simp only [admitted, hcancelled, if_true] at h
      cases h
      exact .refuse htoken
  | stopAdmission detaching => cases h; exact .enterToStop hgate
  | _ => simp [Stage.need] at hneed

theorem transition_of_played {reply : Except Error Unit} (hneed : stage.need = .player)
    (h : c.played stage reply = (d, next, told)) :
    Transition c op stage (.played reply) d next := by
  cases stage with
  | starting l r displaced paused =>
    cases reply with
    | error e => cases h; exact .startFails
    | ok =>
      cases paused with
      | true => cases h; exact .startedAtRest
      | false => cases h; exact .started
  | pausing l r displaced => cases h; exact .paused
  | halting detaching => cases h; exact .halted
  | resuming =>
    cases reply with
    | error e => cases h; exact .pauseKept .resuming _
    | ok => cases h; exact .pauseSet .resuming _ _
  | toggling paused =>
    cases reply with
    | error e => cases h; exact .pauseKept (.toggling paused) _
    | ok => cases h; exact .pauseSet (.toggling paused) _ _
  | adjusting paused =>
    cases reply with
    | error e => cases h; exact .pauseKept (.adjusting paused) _
    | ok => cases h; exact .pauseSet (.adjusting paused) _ _
  | _ => simp [Stage.need] at hneed

theorem transition_of_resolved {l : Launch} {reply : Except Error (Option ResolvedTrack)}
    (h : resolved l reply = (next, told)) :
    Transition c op (.resolving l) (.resolved reply) c next := by
  match reply, h with
  | .ok (some r), h => cases h; exact .resolve
  | .ok none, h =>
    have hnext : (failed l _).1 = next := congrArg Prod.fst h
    subst hnext
    exact .resolveFails (by simp) _
  | .error e, h =>
    have hnext : (failed l e).1 = next := congrArg Prod.fst h
    subst hnext
    exact .resolveFails (by simp) _

theorem transition_of_cancelled {l : Launch} (hstage : Interruptible l stage)
    (h : (if c.isCancelled l.token then some (c, superseded l, []) else none) =
      some (d, next, told)) : Transition c op stage .cancelled d next := by
  by_cases htoken : l.token = c.token
  · simp [isCancelled, htoken] at h
  · have hcancelled : c.isCancelled l.token = true := by simpa [isCancelled] using htoken
    simp only [hcancelled, if_true] at h
    cases h
    exact .cancel hstage htoken

/-! What an operation waits for tells which signal it goes on with. -/

theorem locked_of_step? (hneed : stage.need = .lock)
    (h : c.step? op stage signal = some (d, next, told)) :
    signal = .go ∧ c.locked op stage = (d, next, told) := by
  cases signal with
  | go =>
    have hlocked : c.lockedBy = none ∧ c.locked op stage = (d, next, told) := by
      simpa [step?, hneed] using h
    exact ⟨rfl, hlocked.2⟩
  | _ => simp [step?, hneed] at h

theorem admitted_of_step? (hneed : stage.need = .gate)
    (h : c.step? op stage signal = some (d, next, told)) :
    signal = .go ∧ c.gateHeldBy = none ∧ c.admitted op stage = (d, next, told) := by
  cases signal with
  | go => exact ⟨rfl, by simpa [step?, hneed] using h⟩
  | _ => simp [step?, hneed] at h

theorem played_of_step? (hneed : stage.need = .player)
    (h : c.step? op stage signal = some (d, next, told)) :
    ∃ reply, signal = .played reply ∧ c.played stage reply = (d, next, told) := by
  cases signal with
  | played reply => exact ⟨reply, rfl, by simpa [step?, hneed] using h⟩
  | _ => simp [step?, hneed] at h

/-- Every step of an operation is one of the transitions. -/
theorem transition_of_step? (h : c.step? op stage signal = some (d, next, told)) :
    Transition c op stage signal d next := by
  cases hneed : stage.need with
  | lock =>
    obtain ⟨rfl, hlocked⟩ := locked_of_step? hneed h
    exact transition_of_locked hneed hlocked
  | gate =>
    obtain ⟨rfl, hgate, hadmitted⟩ := admitted_of_step? hneed h
    exact transition_of_admitted hneed hgate hadmitted
  | player =>
    obtain ⟨reply, rfl, hplayed⟩ := played_of_step? hneed h
    exact transition_of_played hneed hplayed
  | nothing =>
    cases stage with
    | ask l =>
      cases signal with
      | go =>
        cases hdirect : l.direct? with
        | none =>
          simp only [step?, Stage.need, hdirect] at h
          cases h
          exact .askResolver hdirect
        | some r =>
          simp only [step?, Stage.need, hdirect] at h
          cases h
          exact .askDirect hdirect
      | cancelled => exact transition_of_cancelled .ask (by simpa only [step?, Stage.need] using h)
      | _ => simp [step?, Stage.need] at h
    | reported search =>
      cases signal with
      | go =>
        simp only [step?, Stage.need] at h
        cases h
        exact .retry
      | _ => simp [step?, Stage.need] at h
    | _ => simp [Stage.need] at hneed
  | resolver =>
    cases stage with
    | resolving l =>
      cases signal with
      | cancelled =>
        exact transition_of_cancelled .resolving (by simpa only [step?, Stage.need] using h)
      | resolved reply =>
        simp only [step?, Stage.need, Option.some.injEq, Prod.mk.injEq] at h
        obtain ⟨rfl, hnext, htold⟩ := h
        exact transition_of_resolved (Prod.ext hnext htold)
      | _ => simp [step?, Stage.need] at h
    | _ => simp [Stage.need] at hneed
  | _ => simp [step?, hneed] at h

end Controller

end Jukebox
