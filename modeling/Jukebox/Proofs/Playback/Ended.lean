import Jukebox.Proofs.Playback.Completion
import Jukebox.Proofs.Playback.Report

/-!
# What becomes of a track whose end is reported

Here requests are served one after the other, each to its end.  A report under a serial that the
current record does not have is dropped, and nothing is done for it.  A report of the current
track opens a cascade, and the record of the track stays current while the cascade looks for
another one.  A start displaces it, and a start that fails brings it back; a start that goes well
puts the track into the history, and a cascade that starts nothing does so when it is closed.  The
cascade is closed more than once, but only the first time the record is still the current one.

So on every way of the cascade (`Controller.Visits`) there is one step by which the track is
disposed of, and from then on its serial is not in use any more
(`Controller.superseded_or_disposed_once`).
-/

namespace Jukebox

/-- The cascade for which the start has taken its track from the queue. -/
def Launch.search? (l : Launch) : Option Cascade :=
  match l.purpose with
  | .search s _ => some s.cascade
  | _ => none

/-- The cascade that looks for a track in the queue. -/
def Stage.search? : Stage → Option Cascade
  | .measure cascade | .giveBack cascade _ _ | .settle cascade _ | .close cascade _ _ =>
    some cascade
  | .take s | .reported s => some s.cascade
  | .ask l | .resolving l | .admission l _ | .install l _ _ | .starting l _ _ _
  | .pausing l _ _ | .rollBack l _ _ | .commit l _ _ => l.search?
  | _ => none

namespace PlaybackState

variable {s : PlaybackState} {cascade : Cascade} {r : PlaybackRecord}

/-! ## What closing the cascade does to the track that has ended -/

theorem retire_of_record (hrecord : s.record = some r) :
    s.retire = { s with record := none, queue := s.queue.remember r.track } := by
  simp only [retire, hrecord]

theorem closeCascade_of_current (hrecord : s.record = some r)
    (hended : cascade.ended = some r.serial) :
    (s.closeCascade cascade).record = none ∧
      (s.closeCascade cascade).queue = s.queue.remember r.track := by
  rcases s.closeCascade_cases cascade with ⟨-, heq⟩ | ⟨hne, -⟩
  · rw [heq, retire_of_record]
    · exact ⟨rfl, rfl⟩
    · exact hrecord
  · refine absurd ⟨by simp [hended], ?_⟩ hne
    rw [serial?, hrecord, hended]
    rfl

theorem closeCascade_of_not_current (hserial : s.serial? ≠ cascade.ended) :
    (s.closeCascade cascade).record = s.record ∧ (s.closeCascade cascade).queue = s.queue := by
  rcases s.closeCascade_cases cascade with ⟨⟨-, hcurrent⟩, -⟩ | ⟨-, heq⟩
  · exact absurd hcurrent hserial
  · rw [heq]
    exact ⟨rfl, rfl⟩

theorem history_takeNext? {track : Track} {state : PlaybackState}
    (h : s.takeNext? = some (track, state)) : state.queue.history = s.queue.history := by
  obtain ⟨taken, htaken, heq⟩ := Option.map_eq_some_iff.mp h
  obtain ⟨a, -, rfl⟩ := Option.map_eq_some_iff.mp htaken
  cases heq
  rfl

theorem history_giveBack (s : PlaybackState) (track : Track) (generation : Nat) :
    (s.giveBack track generation).queue.history = s.queue.history := by
  unfold giveBack
  split <;> rfl

end PlaybackState

namespace Controller

variable {c d : Controller} {op n : Nat} {stage next : Stage} {signal : Signal}
  {told : List PlaybackEvent} {request : Request} {q : Queue} {r : PlaybackRecord}

/-! ## A report about another track -/

theorem begin_of_stale (op : Nat) (hreport : request.report? = some n)
    (hserial : c.state.serial? ≠ some n) :
    c.begin op request = c.answer (.outcome (.ok .superseded)) := by
  obtain ⟨told, hbegin⟩ := begin_eq_signalled hreport
  rw [hbegin, signalled]
  cases hrecord : c.state.record with
  | none => rfl
  | some record =>
    have hne : record.serial ≠ n := by simpa [PlaybackState.serial?, hrecord] using hserial
    simp only [hne, if_false]

/-- A report about another track than the current one is dropped. -/
theorem completes_of_stale_iff (hfree : c.IsFree) (op : Nat)
    (hreport : request.report? = some n) (hserial : c.state.serial? ≠ some n)
    {run : PlaybackRun} :
    Completes op c (.begin request) run ↔ run = ⟨c, [], .outcome (.ok .superseded)⟩ := by
  have hstep : ∀ signal progress, c.step? op (.begin request) signal = some progress →
      progress = c.answer (.outcome (.ok .superseded)) := by
    intro signal progress h
    cases signal with
    | go =>
      rw [← begin_of_stale op hreport hserial]
      obtain ⟨-, h⟩ := Option.ite_none_right_eq_some.mp h
      exact (Option.some.inj h).symm
    | _ => cases h
  constructor
  · intro h
    cases h with
    | step signal h rest =>
      cases hstep signal _ h
      cases rest with
      | finished => rfl
      | step signal h => cases h
  · rintro rfl
    have hgo : c.step? op (.begin request) .go =
        some (c, .finished (.outcome (.ok .superseded)), []) := by
      simp only [step?, Stage.need, hfree.1, Option.isNone_none, if_true, locked]
      rw [begin_of_stale op hreport hserial]
      rfl
    exact .step .go hgo (.finished c (.outcome (.ok .superseded)))

/-! ## Serials that have been used -/

/-- No serial is in use that has not been given to a start. -/
def SerialsGiven (c : Controller) (stage : Stage) : Prop := ∀ n, InUse c stage n → n ≤ c.serial

/-- The serial has been given to a start, and is not in use any more. -/
def Spent (n : Nat) (c : Controller) (stage : Stage) : Prop := n ≤ c.serial ∧ ¬InUse c stage n

theorem serial_le_of_step? (hstep : c.step? op stage signal = some (d, next, told)) :
    c.serial ≤ d.serial := by
  rcases (transition_of_step? hstep).numbersStart with ⟨hserial, -⟩ | ⟨hserial, -⟩ <;> omega

/-- A start that is about to be made has a serial that was not given away before. -/
theorem ne_start?_of_step? (hstep : c.step? op stage signal = some (d, next, told))
    (hle : n ≤ c.serial) : next.start? ≠ some n := by
  intro hstart
  rcases (transition_of_step? hstep).numbersStart with ⟨-, hnone⟩ | ⟨-, hsome, -⟩
  · cases hnone.symm.trans hstart
  · have hnew := Option.some.inj (hsome.symm.trans hstart)
    omega

theorem SerialsGiven.step (h : SerialsGiven c stage)
    (hstep : c.step? op stage signal = some (d, next, told)) : SerialsGiven d next := by
  intro n hn
  rcases (transition_of_step? hstep).inUse hn with hold | ⟨rfl, hserial⟩
  · exact (h n hold).trans (serial_le_of_step? hstep)
  · exact hserial.ge

theorem Spent.step (h : Spent n c stage)
    (hstep : c.step? op stage signal = some (d, next, told)) : Spent n d next := by
  refine ⟨h.1.trans (serial_le_of_step? hstep), ?_⟩
  intro hn
  rcases (transition_of_step? hstep).inUse hn with hold | ⟨rfl, -⟩
  · exact h.2 hold
  · exact absurd h.1 (Nat.not_succ_le_self _)

/-- Between two operations only the current record has a serial. -/
theorem SerialsGiven.again {answer : Answer} (h : SerialsGiven c (.finished answer))
    (request : Request) : SerialsGiven c (.begin request) := by
  intro n hn
  rw [inUse_iff_of_outside rfl] at hn
  exact h n (.inl hn)

theorem Spent.again {answer : Answer} (h : Spent n c (.finished answer)) (request : Request) :
    Spent n c (.begin request) := by
  refine ⟨h.1, ?_⟩
  rw [inUse_iff_of_outside rfl]
  exact fun hserial => h.2 (.inl hserial)

theorem serialsGiven_of_serves (account : Account) (self : Nat) (words : RandomWords)
    {served : List (Request × PlaybackRun)} (hserved : Serves (start account self words) served c)
    (request : Request) : SerialsGiven c (.begin request) := by
  refine hserved.invariant ?_ SerialsGiven.step SerialsGiven.again request
  intro request n hn
  rw [inUse_iff_of_outside rfl] at hn
  cases hn

/-- No record has the serial, whatever is served from here on. -/
def NeverAgain (n : Nat) (c : Controller) : Prop :=
  ∀ served d, Serves c served d → d.state.serial? ≠ some n ∧
    ∀ op request visited run, Visits op d (.begin request) visited run →
      ∀ v ∈ visited, v.1.state.serial? ≠ some n

theorem Spent.neverAgain (h : ∀ request, Spent n c (.begin request)) : NeverAgain n c := by
  intro served d hserved
  have hspent := hserved.invariant h Spent.step Spent.again
  refine ⟨fun hserial => (hspent .mode).2 (.inl hserial), ?_⟩
  intro op request visited run hrun v hv hserial
  exact (hrun.invariant (hspent request) Spent.step v hv).2 (.inl hserial)

/-! ## The track until it is disposed of -/

/-- The operation answers for the track of the record: the record is the current one, or the one
that a start has displaced, and the track is not yet in the history. -/
structure Holds (q : Queue) (r : PlaybackRecord) (c : Controller) (stage : Stage) : Prop where
  record : c.state.record = some r ∨ stage.displaced? = some r
  history : c.state.queue.history = q.history

/-- The track of the record is in the history, and nobody will make its record current. -/
structure Disposed (q : Queue) (r : PlaybackRecord) (c : Controller) (stage : Stage) : Prop where
  unused : ¬InUse c stage r.serial
  history : c.state.queue.history = (r.track :: q.history).take Queue.historyLimit

/-- All along the way the operation holds the track until it disposes of it, once for all. -/
def DisposesOnce (q : Queue) (r : PlaybackRecord) (visited : List (Controller × Stage)) : Prop :=
  ∃ before after, visited = before ++ after ∧ before ≠ [] ∧ after ≠ [] ∧
    (∀ v ∈ before, Holds q r v.1 v.2) ∧ ∀ v ∈ after, Disposed q r v.1 v.2

/-- The end of the track has opened the cascade of the operation. -/
def Follows (n : Nat) (stage : Stage) : Prop :=
  ∃ cascade, stage.search? = some cascade ∧ cascade.ended = some n

/-- How the cascade that the end of the track has opened holds the track. -/
structure Cascading (q : Queue) (r : PlaybackRecord) (c : Controller) (stage : Stage) : Prop where
  follows : Follows r.serial stage
  record : stage.isLaunched = false ∧ c.state.record = some r ∨
    stage.displaced? = some r ∧ c.state.serial? ≠ some r.serial
  history : c.state.queue.history = q.history
  given : r.serial ≤ c.serial
  start : stage.start? ≠ some r.serial

/-- How that cascade ends after it has disposed of the track. -/
structure Closing (q : Queue) (r : PlaybackRecord) (c : Controller) (stage : Stage) : Prop where
  settling : (∃ answer, stage = .finished answer) ∨ stage.isSettling = true ∧ Follows r.serial stage
  serial : c.state.serial? ≠ some r.serial
  history : c.state.queue.history = (r.track :: q.history).take Queue.historyLimit

theorem Cascading.holds (h : Cascading q r c stage) : Holds q r c stage :=
  ⟨h.record.imp And.right And.left, h.history⟩

theorem Closing.disposed (h : Closing q r c stage) : Disposed q r c stage := by
  refine ⟨?_, h.history⟩
  rw [inUse_iff_of_outside]
  · exact h.serial
  · rcases h.settling with ⟨answer, rfl⟩ | ⟨hsettling, -⟩
    · rfl
    · exact Stage.isInside_of_isSettling hsettling

/-! ## One step of the cascade -/

theorem search?_nextAttempt (c : Controller) (s : Search) :
    (c.nextAttempt s).1.search? = some s.cascade := by
  rcases nextAttempt_cases c s with ⟨h, -⟩ | ⟨h, -⟩ | h <;> rw [h] <;> rfl

theorem purpose_of_search? {l : Launch} {cascade : Cascade} (h : l.search? = some cascade) :
    ∃ s generation, l.purpose = .search s generation ∧ s.cascade = cascade := by
  unfold Launch.search? at h
  split at h
  · next s generation hpurpose => exact ⟨s, generation, hpurpose, Option.some.inj h⟩
  · cases h

theorem search?_failed {l : Launch} {cascade : Cascade} (e : Error)
    (h : l.search? = some cascade) : (failed l e).1.search? = some cascade := by
  obtain ⟨s, generation, hpurpose, rfl⟩ := purpose_of_search? h
  simp only [failed, hpurpose, Stage.search?]

theorem search?_superseded {l : Launch} {cascade : Cascade} (h : l.search? = some cascade) :
    (superseded l).search? = some cascade := by
  obtain ⟨s, generation, hpurpose, rfl⟩ := purpose_of_search? h
  simp only [superseded, hpurpose, Stage.search?]

/-- While the record of the track is current, the cascade that it has opened disposes of the
track as soon as it is closed. -/
theorem Cascading.closeCascade {cascade : Cascade} (h : Cascading q r c stage)
    (hstage : stage.search? = some cascade) (hout : stage.isInside = false)
    (hnext : (∃ answer, next = .finished answer) ∨
      next.isSettling = true ∧ next.search? = some cascade) :
    Closing q r (c.update (·.closeCascade cascade)) next := by
  have hended : cascade.ended = some r.serial := by
    obtain ⟨cascade', hcascade', hended⟩ := h.follows
    obtain rfl := Option.some.inj (hstage.symm.trans hcascade')
    exact hended
  have hrecord : c.state.record = some r := by
    rcases h.record with ⟨-, hrecord⟩ | ⟨hdisplaced, -⟩
    · exact hrecord
    · cases (Stage.displaced?_eq_none hout).symm.trans hdisplaced
  obtain ⟨hnone, hqueue⟩ := PlaybackState.closeCascade_of_current hrecord hended
  refine ⟨hnext.imp_right fun ⟨hsettling, hsearch⟩ => ⟨hsettling, cascade, hsearch, hended⟩, ?_, ?_⟩
  · simp [update, PlaybackState.serial?, hnone]
  · simp only [update, hqueue, Queue.remember, h.history]

/-- A start that went well puts the track that it displaced into the history. -/
theorem Cascading.commit {l : Launch} {resolved : ResolvedTrack} {displaced : Option PlaybackRecord}
    (h : Cascading q r c (.commit l resolved displaced)) :
    Closing q r
      { c.update fun s =>
        { s with queue := displace l.purpose (s.queue.refresh resolved.track) displaced } with
        gateHeldBy := none }
      (succeeded l).1 := by
  obtain ⟨cascade, hsearch, hended⟩ := h.follows
  obtain ⟨s, generation, hpurpose, rfl⟩ := purpose_of_search? hsearch
  rcases h.record with ⟨hlaunched, -⟩ | ⟨rfl, hserial⟩
  · cases hlaunched
  have hsettle : (succeeded l).1 = .settle s.cascade .started := by
    simp only [succeeded, hpurpose, endSearch]
  refine ⟨?_, hserial, ?_⟩
  · rw [hsettle]
    exact .inr ⟨rfl, s.cascade, rfl, hended⟩
  · have hhistory : (c.state.queue.refresh resolved.track).history = q.history := h.history
    simp only [update, hpurpose, displace, Queue.remember, hhistory]

/-- A step that leaves the history alone keeps the track, if the record is current or displaced
afterwards. -/
theorem Cascading.keeps (h : Cascading q r c stage)
    (hstep : c.step? op stage signal = some (d, next, told))
    (hnext : next.search? = stage.search?)
    (hhistory : d.state.queue.history = c.state.queue.history)
    (hrecord : next.isLaunched = false ∧ d.state.record = some r ∨
      next.displaced? = some r ∧ d.state.serial? ≠ some r.serial) : Cascading q r d next := by
  obtain ⟨cascade, hsearch, hended⟩ := h.follows
  refine ⟨⟨cascade, hnext.trans hsearch, hended⟩, hrecord, hhistory.trans h.history, ?_, ?_⟩
  · exact h.given.trans (serial_le_of_step? hstep)
  · exact ne_start?_of_step? hstep h.given

/-- Most steps neither touch the record nor open or end a start. -/
theorem Cascading.keeps_of_same (h : Cascading q r c stage)
    (hstep : c.step? op stage signal = some (d, next, told))
    (hnext : next.search? = stage.search?)
    (hhistory : d.state.queue.history = c.state.queue.history)
    (hrecord : d.state.record = c.state.record) (hlaunched : next.isLaunched = stage.isLaunched)
    (hdisplaced : next.displaced? = stage.displaced?) : Cascading q r d next := by
  apply h.keeps hstep hnext hhistory
  rw [hlaunched, hdisplaced, PlaybackState.serial?, hrecord]
  exact h.record

theorem Cascading.keeps_of_outside (h : Cascading q r c stage)
    (hstep : c.step? op stage signal = some (d, next, told))
    (hnext : next.search? = stage.search?)
    (hhistory : d.state.queue.history = c.state.queue.history)
    (hrecord : d.state.record = c.state.record) (hstage : stage.isInside = false)
    (hout : next.isInside = false) : Cascading q r d next := by
  apply h.keeps_of_same hstep hnext hhistory hrecord
  · rw [Stage.isLaunched_eq_false hstage, Stage.isLaunched_eq_false hout]
  · rw [Stage.displaced?_eq_none hstage, Stage.displaced?_eq_none hout]

/-- Each step of the cascade keeps the track or disposes of it. -/
theorem Cascading.step (h : Cascading q r c stage)
    (hstep : c.step? op stage signal = some (d, next, told)) :
    Cascading q r d next ∨ Closing q r d next := by
  obtain ⟨cascade, hsearch, -⟩ := h.follows
  cases transition_of_step? hstep with
  | measure hcascade =>
    have hnext := (search?_nextAttempt c _).trans (congrArg some hcascade)
    exact .inl (h.keeps_of_outside hstep hnext rfl rfl rfl (unburdened_nextAttempt c _).isInside)
  | @retry search =>
    have hnext := search?_nextAttempt c search
    exact .inl (h.keeps_of_outside hstep hnext rfl rfl rfl (unburdened_nextAttempt c _).isInside)
  | take htake =>
    have hhistory := PlaybackState.history_takeNext? htake
    exact .inl (h.keeps_of_outside hstep rfl hhistory (takeNext?_frame htake).1 rfl rfl)
  | @giveBack _ track generation =>
    have hhistory := c.state.history_giveBack track generation
    exact .inl (h.keeps_of_outside hstep rfl hhistory (giveBack_frame _ _ _).1 rfl rfl)
  | takeNothing => exact .inr (h.closeCascade rfl rfl (.inr ⟨rfl, rfl⟩))
  | settle => exact .inr (h.closeCascade rfl rfl (.inr ⟨rfl, rfl⟩))
  | close => exact .inr (h.closeCascade rfl rfl (.inl ⟨_, rfl⟩))
  | install =>
    refine .inl (h.keeps hstep rfl rfl (.inr ⟨?_, h.start⟩))
    rcases h.record with ⟨-, hrecord⟩ | ⟨hdisplaced, -⟩
    · exact hrecord
    · cases hdisplaced
  | rollBack =>
    refine .inl (h.keeps hstep ((search?_failed _ hsearch).trans hsearch.symm) rfl
      (.inl ⟨?_, ?_⟩))
    · exact Stage.isLaunched_eq_false (unburdened_failed _ _).isInside
    · rcases h.record with ⟨hlaunched, -⟩ | ⟨hdisplaced, -⟩
      · cases hlaunched
      · exact hdisplaced
  | commit => exact .inr h.commit
  | refuse =>
    have hnext := (search?_superseded hsearch).trans hsearch.symm
    exact .inl (h.keeps_of_outside hstep hnext rfl rfl rfl (isInside_superseded _))
  | cancel hstage =>
    cases hstage <;>
      exact .inl (h.keeps_of_outside hstep ((search?_superseded hsearch).trans hsearch.symm) rfl rfl
        rfl (isInside_superseded _))
  | resolveFails _ e =>
    have hnext := (search?_failed e hsearch).trans hsearch.symm
    exact .inl (h.keeps_of_outside hstep hnext rfl rfl rfl (unburdened_failed _ e).isInside)
  | askDirect | askResolver | resolve | enter | startFails | started | startedAtRest | paused =>
    exact .inl (h.keeps_of_same hstep rfl rfl rfl rfl rfl)
  | pauseSet hstage => cases hstage <;> cases hsearch
  | pauseKept hstage => cases hstage <;> cases hsearch
  | _ => cases hsearch

/-- Closing the cascade once more does nothing. -/
theorem Closing.closeCascade {cascade : Cascade} (h : Closing q r c stage)
    (hended : cascade.ended = some r.serial)
    (hnext : (∃ answer, next = .finished answer) ∨ next.isSettling = true ∧ Follows r.serial next) :
    Closing q r (c.update (·.closeCascade cascade)) next := by
  have hserial : c.state.serial? ≠ cascade.ended := hended ▸ h.serial
  obtain ⟨hrecord, hqueue⟩ := PlaybackState.closeCascade_of_not_current hserial
  refine ⟨hnext, ?_, ?_⟩
  · rw [update, PlaybackState.serial?, hrecord]
    exact h.serial
  · rw [update, hqueue]
    exact h.history

theorem Closing.step (h : Closing q r c stage)
    (hstep : c.step? op stage signal = some (d, next, told)) : Closing q r d next := by
  rcases h.settling with ⟨answer, rfl⟩ | ⟨hsettling, cascade, hsearch, hended⟩
  · simp [step?, Stage.need] at hstep
  · cases transition_of_step? hstep with
    | settle final =>
      obtain rfl := Option.some.inj hsearch
      exact h.closeCascade hended (.inr ⟨rfl, _, rfl, hended⟩)
    | close =>
      obtain rfl := Option.some.inj hsearch
      exact h.closeCascade hended (.inl ⟨_, rfl⟩)
    | cancel hstage => cases hstage <;> cases hsettling
    | pauseSet hstage => cases hstage <;> cases hsettling
    | pauseKept hstage => cases hstage <;> cases hsettling
    | _ => cases hsettling

/-! ## All of the way -/

theorem Cascading.not_finished {answer : Answer} : ¬Cascading q r c (.finished answer) := by
  intro h
  obtain ⟨cascade, hsearch, -⟩ := h.follows
  cases hsearch

theorem Cascading.disposesOnce {visited : List (Controller × Stage)} {run : PlaybackRun}
    (h : Cascading q r c stage) (hrun : Visits op c stage visited run) :
    DisposesOnce q r visited := by
  obtain ⟨before, after, heq, hbefore, hafter, hkeeps, hsettles⟩ :=
    hrun.exists_append h Cascading.step Closing.step Cascading.not_finished
  exact ⟨before, after, heq, hbefore, hafter, fun v hv => (hkeeps v hv).holds,
    fun v hv => (hsettles v hv).disposed⟩

/-- The cascade that a report of the current track opens holds the track. -/
theorem cascading_of_report (hreport : request.report? = some r.serial)
    (hrecord : c.state.record = some r) (hle : r.serial ≤ c.serial)
    (hstep : c.step? op (.begin request) signal = some (d, next, told)) :
    Cascading c.state.queue r d next := by
  obtain ⟨said, hbegin⟩ := begin_eq_signalled hreport
  cases transition_of_step? hstep with
  | begin e =>
    simp only [hbegin, signalled, hrecord, if_true] at e
    cases e
    exact ⟨⟨_, rfl, rfl⟩, .inl ⟨rfl, hrecord⟩, rfl, hle, by simp [beginCascade, Stage.start?]⟩
  | cancel hstage => cases hstage
  | pauseSet hstage => cases hstage
  | pauseKept hstage => cases hstage

theorem disposesOnce_of_report {visited : List (Controller × Stage)} {run : PlaybackRun}
    (hreport : request.report? = some r.serial) (hrecord : c.state.record = some r)
    (hle : r.serial ≤ c.serial) (hrun : Visits op c (.begin request) visited run) :
    DisposesOnce c.state.queue r visited := by
  cases hrun with
  | @step _ d _ next told rest run signal hstep hrest =>
    obtain ⟨before, after, rfl, -, hafter, hbefore, hdisposed⟩ :=
      (cascading_of_report hreport hrecord hle hstep).disposesOnce hrest
    exact ⟨_ :: before, after, rfl, List.cons_ne_nil _ _, hafter,
      List.forall_mem_cons.mpr ⟨⟨.inl hrecord, rfl⟩, hbefore⟩, hdisposed⟩

/-- Where the operation ends, it has disposed of the track. -/
theorem DisposesOnce.disposed {visited : List (Controller × Stage)} {run : PlaybackRun}
    (h : DisposesOnce q r visited) (hrun : Visits op c stage visited run) :
    Disposed q r run.controller (.finished run.answer) := by
  obtain ⟨before, after, rfl, -, hafter, -, hdisposed⟩ := h
  have hlast := hrun.getLast?_eq
  rw [List.getLast?_append_of_ne_nil before hafter] at hlast
  exact hdisposed _ (List.mem_of_getLast? hlast)

/-! ## Whole runs -/

/-- A report after any requests that were served one after the other, with any answers of the
resolver and the player.  If the current record does not have the serial, the report is superseded
and leaves everything as it is; nobody is called.  If it has, the operation comes to its end
whatever is answered, puts the track into the history once on the way, at the head of what was
there, and the serial never comes back. -/
theorem superseded_or_disposed_once (account : Account) (self : Nat) (words : RandomWords)
    {served : List (Request × PlaybackRun)} (hserved : Serves (start account self words) served c)
    (hreport : request.report? = some n) :
    (c.state.serial? ≠ some n → ∀ op run,
      Completes op c (.begin request) run ↔ run = ⟨c, [], .outcome (.ok .superseded)⟩) ∧
    ∀ r, c.state.record = some r → r.serial = n →
      (∀ w : Collaborators, ∃ run, c.run w request = some run) ∧
      ∀ op visited run, Visits op c (.begin request) visited run →
        DisposesOnce c.state.queue r visited ∧
        run.controller.state.serial? ≠ some n ∧
        run.controller.state.queue.history = (r.track :: c.state.queue.history).take 50 ∧
        NeverAgain n run.controller := by
  have hfree : c.IsFree := IsFree.serves ⟨rfl, rfl⟩ hserved
  constructor
  · intro hserial op run
    exact completes_of_stale_iff hfree op hreport hserial
  · rintro r hrecord rfl
    refine ⟨fun w => hfree.exists_run w request, ?_⟩
    intro op visited run hrun
    have hle : r.serial ≤ c.serial := by
      refine serialsGiven_of_serves account self words hserved request r.serial (.inl ?_)
      rw [PlaybackState.serial?, hrecord]
      rfl
    have honce := disposesOnce_of_report hreport hrecord hle hrun
    have hdisposed := honce.disposed hrun
    have hspent : Spent r.serial run.controller (.finished run.answer) := by
      have hcompletes := completes_iff_exists_visits.mpr ⟨visited, hrun⟩
      have hgiven := hcompletes.invariant (P := fun c _ => r.serial ≤ c.serial) hle
        fun hle hstep => hle.trans (serial_le_of_step? hstep)
      exact ⟨hgiven, hdisposed.unused⟩
    exact ⟨honce, fun hserial => hdisposed.unused (.inl hserial), hdisposed.history,
      Spent.neverAgain hspent.again⟩

/-- A track is put into the empty queue and starts; then its end is reported, and that of a track
which was never started. -/
theorem superseded_or_disposed_once_of_enqueue :
    let w : Collaborators := ⟨fun _ _ => .ok none, fun _ => .ok ()⟩
    let account : Account := ⟨default, ⟨[], .standard⟩, .empty⟩
    ∃ first r, Serves (start account 0 []) [(.enqueue (.direct "a"), first)] first.controller ∧
      first.controller.state.record = some r ∧ r.serial = 1 ∧
      (∀ op run, Completes op first.controller (.begin (.ended 2)) run ↔
        run = ⟨first.controller, [], .outcome (.ok .superseded)⟩) ∧
      ∃ last, first.controller.run w (.failed 1 "boom") = some last ∧
        last.controller.state.serial? ≠ some 1 ∧
        last.controller.state.queue.history = [{ Track.direct "a" with inPlaylist := true }] ∧
        NeverAgain 1 last.controller := by
  intro w account
  obtain ⟨first, hfirst⟩ :=
    IsFree.exists_run (c := start account 0 []) ⟨rfl, rfl⟩ w (.enqueue (.direct "a"))
  have hserved : Serves (start account 0 []) [(.enqueue (.direct "a"), first)] first.controller :=
    .cons 0 (completes_of_run hfirst) (.nil _)
  let track : Track := { Track.direct "a" with inPlaylist := true }
  have hplays : first.controller.state.record.map (fun r => (r.track, r.serial)) =
      some (track, 1) ∧ first.controller.state.queue.history = [] := by
    have hrun : ((start account 0 []).run w (.enqueue (.direct "a"))).map
        (fun run => (run.controller.state.record.map fun r => (r.track, r.serial),
          run.controller.state.queue.history)) = some (some (track, 1), []) := by decide +kernel
    rw [hfirst] at hrun
    exact Prod.mk.inj (Option.some.inj hrun)
  obtain ⟨r, hrecord, hr⟩ := Option.map_eq_some_iff.mp hplays.1
  obtain ⟨htrack, hr⟩ := Prod.mk.inj hr
  obtain ⟨hstale, -⟩ := superseded_or_disposed_once account 0 [] hserved
    (show (Request.ended 2).report? = some 2 from rfl)
  obtain ⟨-, hcurrent⟩ := superseded_or_disposed_once account 0 [] hserved
    (show (Request.failed 1 "boom").report? = some 1 from rfl)
  obtain ⟨hruns, hvisits⟩ := hcurrent r hrecord hr
  obtain ⟨last, hlast⟩ := hruns w
  obtain ⟨visited, hvisited⟩ := completes_iff_exists_visits.mp (completes_of_run hlast)
  obtain ⟨-, hgone, hhistory, hnever⟩ := hvisits 0 visited last hvisited
  rw [htrack, hplays.2] at hhistory
  refine ⟨first, r, hserved, hrecord, hr, ?_, last, hlast, hgone, hhistory, hnever⟩
  exact hstale (by rw [PlaybackState.serial?, hrecord, Option.map_some, hr]; decide)

end Controller

end Jukebox
