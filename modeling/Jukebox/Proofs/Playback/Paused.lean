import Jukebox.Proofs.Playback.Order

/-!
# Whether the record says that the player rests

The player plays after a start that went well, and rests or plays as it was told last.  The record
says the same as long as nobody pauses while a start is open.  The record of a start is made
before the player is asked, so a pause in between is laid into that record; then the player
starts, or rests, regardless of it, or the start fails and the record that it had displaced comes
back as it was.  `System.paused_ne_rests_iff` says that nothing else makes the two differ.

The player does what it is asked for when it answers.
-/

namespace Jukebox

namespace Stage

/-- What the player is told by an operation that keeps the lock meanwhile. -/
def pause? : Stage → Option Bool
  | .resuming => some false
  | .toggling paused | .adjusting paused => some paused
  | _ => none

/-- Whether the player rests once it has given the answer; nothing where it stays as it was. -/
def rest? : Stage → Signal → Option Bool
  | .starting _ _ _ _, .played (.ok ()) => some false
  | .pausing _ _ _, .played (.ok ()) => some true
  | stage, .played (.ok ()) => stage.pause?
  | _, _ => none

/-- The player refuses to rest or to go on. -/
def refuses : Stage → Signal → Bool
  | .pausing _ _ _, .played (.error _) | .resuming, .played (.error _)
  | .toggling _, .played (.error _) | .adjusting _, .played (.error _) => true
  | _, _ => false

/-- The start has made its record, and may still change the player or take the record back. -/
def isOpen : Stage → Bool
  | .starting _ _ _ _ | .pausing _ _ _ | .rollBack _ _ _ => true
  | _ => false

/-- How a start leaves the player if it goes well. -/
def intended? : Stage → Option Bool
  | .starting _ _ _ paused => some paused
  | .pausing _ _ _ => some true
  | _ => none

/-- The record that comes back if the start fails. -/
def restored? : Stage → Option PlaybackRecord
  | .starting _ _ displaced _ | .rollBack _ displaced _ => displaced
  | _ => none

/-- With this step a start is over: it leaves the player so, or brings a record back that says
so. -/
def settled? : Stage → Signal → Option Bool
  | .starting _ _ _ false, .played (.ok ()) => some false
  | .pausing _ _ _, .played (.ok ()) => some true
  | .rollBack _ displaced _, .go => displaced.map PlaybackRecord.paused
  | _, _ => none

theorem isLaunched_of_isOpen {stage : Stage} (h : stage.isOpen = true) :
    stage.isLaunched = true := by
  cases stage <;> first | rfl | cases h

theorem isInside_of_isOpen {stage : Stage} (h : stage.isOpen = true) : stage.isInside = true :=
  isInside_of_isLaunched (isLaunched_of_isOpen h)

theorem isOpen_of_intended? {stage : Stage} {paused : Bool} (h : stage.intended? = some paused) :
    stage.isOpen = true := by
  cases stage <;> first | rfl | cases h

theorem isOpen_of_restored? {stage : Stage} {r : PlaybackRecord} (h : stage.restored? = some r) :
    stage.isOpen = true := by
  cases stage <;> first | rfl | cases h

theorem isOpen_of_settled? {stage : Stage} {signal : Signal} {settled : Bool}
    (h : stage.settled? signal = some settled) : stage.isOpen = true := by
  cases stage <;> first | rfl | cases h

theorem refuses_ok (stage : Stage) : stage.refuses (.played (.ok ())) = false := by
  cases stage <;> rfl

theorem refuses_of_settled? {stage : Stage} {signal : Signal} {settled : Bool}
    (h : stage.settled? signal = some settled) : stage.refuses signal = false := by
  unfold settled? at h
  split at h
  · rfl
  · rfl
  · rfl
  · cases h

theorem isInside_of_pause? {stage : Stage} {paused : Bool} (h : stage.pause? = some paused) :
    stage.isInside = false := by
  cases stage <;> first | rfl | cases h

theorem start?_of_isOpen {stage : Stage} (h : stage.isOpen = true) : stage.start? = none := by
  cases stage <;> first | rfl | cases h

theorem isOpen_eq_false {stage : Stage} (h : stage.isLaunched = false) : stage.isOpen = false := by
  by_contra hopen
  rw [Bool.not_eq_false] at hopen
  rw [isLaunched_of_isOpen hopen] at h
  cases h

end Stage

namespace Controller

variable {c d : Controller} {op : Nat} {stage next : Stage} {signal : Signal}
  {told : List PlaybackEvent}

/-! ## What a step does to the player and to the record -/

/-- What a step does to the record of the current track and to an open start. -/
inductive PauseMove (c d : Controller) : Stage → Signal → Stage → Prop
  /-- The player stays as it was, and the record too unless it is retired. -/
  | keeps {stage next : Stage} {signal : Signal} (hrest : stage.rest? signal = none)
      (hrecord : d.state.record = c.state.record ∨ d.state.record = none)
      (hstage : stage.isOpen = false) (hnext : next.isLaunched = false) :
      PauseMove c d stage signal next
  | sets {stage : Stage} {paused : Bool} (answer : Answer) (hstage : stage.pause? = some paused)
      (hrecord : d.state.record = c.state.record.map fun record => { record with paused }) :
      PauseMove c d stage (.played (.ok ())) (.finished answer)
  | installs {l : Launch} {r : ResolvedTrack} {serial : Nat}
      (hrecord : d.state.record = some (c.state.newRecord r l.retries serial)) :
      PauseMove c d (.install l r serial) .go
        (.starting l r c.state.record (c.state.newRecord r l.retries serial).paused)
  | fails {l : Launch} {r : ResolvedTrack} {displaced : Option PlaybackRecord} {paused : Bool}
      {e : Error} (hd : d = c) :
      PauseMove c d (.starting l r displaced paused) (.played (.error e)) (.rollBack l displaced e)
  | starts {l : Launch} {r : ResolvedTrack} {displaced : Option PlaybackRecord} (hd : d = c) :
      PauseMove c d (.starting l r displaced false) (.played (.ok ())) (.commit l r displaced)
  | startsAtRest {l : Launch} {r : ResolvedTrack} {displaced : Option PlaybackRecord}
      (hd : d = c) :
      PauseMove c d (.starting l r displaced true) (.played (.ok ())) (.pausing l r displaced)
  | rests {l : Launch} {r : ResolvedTrack} {displaced : Option PlaybackRecord} (hd : d = c) :
      PauseMove c d (.pausing l r displaced) (.played (.ok ())) (.commit l r displaced)
  | rollsBack {l : Launch} {displaced : Option PlaybackRecord} {e : Error} {next : Stage}
      (hrecord : d.state.record = displaced) (hnext : next.isLaunched = false) :
      PauseMove c d (.rollBack l displaced e) .go next

theorem pauseMove_of_outside (hrest : stage.rest? signal = none)
    (hrecord : d.state.record = c.state.record ∨ d.state.record = none)
    (hstage : stage.isInside = false) (hnext : next.isInside = false) :
    PauseMove c d stage signal next :=
  .keeps hrest hrecord (Stage.isOpen_eq_false (Stage.isLaunched_eq_false hstage))
    (Stage.isLaunched_eq_false hnext)

theorem pauseMove_of_keepsLock (hkeeps : KeepsLock stage)
    (h : c.step? op stage (.played (.ok ())) = some (d, next, told)) :
    PauseMove c d stage (.played (.ok ())) next := by
  cases hkeeps with
  | resuming =>
    cases h
    exact .sets _ rfl rfl
  | toggling paused =>
    cases h
    exact .sets _ rfl rfl
  | adjusting paused =>
    cases h
    exact .sets _ rfl rfl

theorem pauseMove_of_step? (h : c.step? op stage signal = some (d, next, told))
    (hobeys : stage.refuses signal = false) : PauseMove c d stage signal next := by
  cases transition_of_step? h with
  | begin e begins => exact pauseMove_of_outside rfl (.inl begins.frame.2.2) rfl begins.isInside
  | measure => exact pauseMove_of_outside rfl (.inl rfl) rfl (unburdened_nextAttempt c _).isInside
  | retry => exact pauseMove_of_outside rfl (.inl rfl) rfl (unburdened_nextAttempt c _).isInside
  | take htake => exact .keeps rfl (.inl (takeNext?_frame htake).1) rfl rfl
  | takeNothing => exact .keeps rfl (closeCascade_record _ _) rfl rfl
  | giveBack => exact .keeps rfl (.inl (giveBack_frame _ _ _).1) rfl rfl
  | settle => exact .keeps rfl (closeCascade_record _ _) rfl rfl
  | close => exact .keeps rfl (closeCascade_record _ _) rfl rfl
  | install => exact .installs rfl
  | rollBack => exact .rollsBack rfl (Stage.isLaunched_eq_false (unburdened_failed _ _).isInside)
  | commit => exact .keeps rfl (.inl rfl) rfl (Stage.isLaunched_eq_false (unburdened_succeeded _).isInside)
  | retire => exact .keeps rfl (.inr (retire_frame _).1) rfl rfl
  | refuse => exact pauseMove_of_outside rfl (.inl rfl) rfl (isInside_superseded _)
  | cancel hstage =>
    cases hstage <;> exact pauseMove_of_outside rfl (.inl rfl) rfl (isInside_superseded _)
  | resolveFails => exact pauseMove_of_outside rfl (.inl rfl) rfl (unburdened_failed _ _).isInside
  | startFails => exact .fails rfl
  | started => exact .starts rfl
  | startedAtRest => exact .startsAtRest rfl
  | @paused l r displaced reply =>
    cases reply with
    | error e => cases hobeys
    | ok => exact .rests rfl
  | @halted detaching reply =>
    cases reply <;> exact .keeps rfl (.inl rfl) rfl rfl
  | pauseSet hstage => exact pauseMove_of_keepsLock hstage h
  | pauseKept hstage =>
    cases hstage <;> cases hobeys
  | _ => exact .keeps rfl (.inl rfl) rfl rfl

/-- An operation outside the gate leaves the player and the record, or tells both the same. -/
theorem PauseMove.outside (h : PauseMove c d stage signal next)
    (hout : stage.isInside = false) :
    (stage.rest? signal = none ∧
        (d.state.record = c.state.record ∨ d.state.record = none)) ∨
      ∃ paused, signal = .played (.ok ()) ∧ stage.pause? = some paused ∧
        d.state.record = c.state.record.map fun record => { record with paused } := by
  cases h with
  | keeps hrest hrecord => exact .inl ⟨hrest, hrecord⟩
  | sets answer hstage hrecord => exact .inr ⟨_, rfl, hstage, hrecord⟩
  | _ => cases hout

end Controller

namespace System

variable {allowed : System → Move → Prop} {s t u v w : System} {op op' : Nat} {signal : Signal}
  {stage stage' next : Stage} {told : List PlaybackEvent} {moves more : List Move} {m : Move}
  {b f paused : Bool} {n : Nat}

/-! ## The player along a run -/

/-- The player does not refuse to rest or to go on. -/
def obeying (s : System) : Move → Prop
  | .arrive _ => True
  | .advance op signal => ∀ stage, s.stage? op = some stage → stage.refuses signal = false

/-- Whether the player rests after the move; nothing where it stays as it was. -/
def rest? (s : System) : Move → Option Bool
  | .arrive _ => none
  | .advance op signal => (s.stage? op).bind (·.rest? signal)

/-- Whether the player rests after some moves, if `b` says it of the time before. -/
def rests (s : System) (b : Bool) : List Move → Bool
  | [] => b
  | m :: moves => ((s.move? m).map fun t => t.rests ((s.rest? m).getD b) moves).getD b

/-- What the player is told in the move by an operation that lays the same into the record. -/
def pause? (s : System) : Move → Option Bool
  | .advance op (.played (.ok ())) => (s.stage? op).bind Stage.pause?
  | _ => none

/-- Nobody pauses or resumes. -/
def unpaused (s : System) (m : Move) : Prop := s.obeying m ∧ s.pause? m = none

/-- The player stays as it was. -/
def undisturbed (s : System) (m : Move) : Prop := s.obeying m ∧ s.rest? m = none

/-- Since the start of the operation is open, this is what was told last by somebody else. -/
def PausedSince (s : System) (moves : List Move) (t : System) (op : Nat) (paused : Bool) : Prop :=
  ∃ before p between u v stage, moves = before ++ p :: between ∧ s.Run obeying before u ∧
    u.stage? op = some stage ∧ stage.isOpen = true ∧ u.pause? p = some paused ∧
    u.move? p = some v ∧ v.Run unpaused between t ∧
    t.controller.serial = u.controller.serial

/-- On the run somebody has paused or resumed while a start was open, the start then settled
otherwise, and since then the player has stayed as it was. -/
def PausedInVain (s : System) (moves : List Move) (t : System) : Prop :=
  ∃ before op signal after u v stage paused settled,
    moves = before ++ .advance op signal :: after ∧ s.PausedSince before u op paused ∧
    u.stage? op = some stage ∧ stage.settled? signal = some settled ∧ settled ≠ paused ∧
    u.move? (.advance op signal) = some v ∧ v.Run undisturbed after t

theorem rests_append (h : s.Run allowed moves t) (b : Bool) (more : List Move) :
    s.rests b (moves ++ more) = t.rests (s.rests b moves) more := by
  have hmoves := moves?_eq_some_of_run h
  clear h
  induction moves generalizing s b with
  | nil =>
    obtain rfl : s = t := by simpa [moves?] using hmoves
    rfl
  | cons m moves ih =>
    obtain ⟨u, hmove, hrest⟩ := Option.bind_eq_some_iff.mp hmoves
    simp only [List.cons_append, rests, hmove, Option.map_some, Option.getD_some]
    exact ih _ hrest

theorem rests_cons (hmove : s.move? m = some t) (b : Bool) (moves : List Move) :
    s.rests b (m :: moves) = t.rests ((s.rest? m).getD b) moves := by
  simp only [rests, hmove, Option.map_some, Option.getD_some]

theorem rests_snoc (h : s.Run allowed moves t) (hmove : t.move? m = some u) (b : Bool) :
    s.rests b (moves ++ [m]) = (t.rest? m).getD (s.rests b moves) := by
  rw [rests_append h, rests_cons hmove]
  rfl

theorem Advances.rest? (a : s.Advances t op signal stage next told) :
    s.rest? (.advance op signal) = stage.rest? signal := by
  simp [System.rest?, a.before]

theorem Advances.pause? (a : s.Advances t op signal stage next told)
    (hstage : stage.pause? = none) : s.pause? (.advance op signal) = none := by
  unfold System.pause?
  split
  · next heq =>
    cases heq
    simp [a.before, hstage]
  · rfl

theorem Advances.tells (a : s.Advances t op (.played (.ok ())) stage next told)
    (hstage : stage.pause? = some paused) :
    s.pause? (.advance op (.played (.ok ()))) = some paused := by
  simp [System.pause?, a.before, hstage]

theorem Advances.pauseMove (a : s.Advances t op signal stage next told)
    (hallowed : s.obeying (.advance op signal)) :
    s.controller.PauseMove t.controller stage signal next :=
  Controller.pauseMove_of_step? a.step (hallowed stage a.before)

/-- Whatever the player is told changes it. -/
theorem rest?_of_pause? (h : s.pause? m = some paused) : s.rest? m = some paused := by
  unfold System.pause? at h
  split at h
  · next op =>
    obtain ⟨stage, hstage, hpause⟩ := Option.bind_eq_some_iff.mp h
    simp only [System.rest?, hstage, Option.bind_some]
    cases stage <;> first | exact hpause | cases hpause
  · cases h

theorem pause?_eq_none (h : s.rest? m = none) : s.pause? m = none := by
  cases hpause : s.pause? m with
  | none => rfl
  | some paused =>
    rw [rest?_of_pause? hpause] at h
    cases h

theorem PausedSince.snoc (h : s.PausedSince moves t op paused) (hallowed : t.unpaused m)
    (hmove : t.move? m = some u) (hserial : u.controller.serial = t.controller.serial) :
    s.PausedSince (moves ++ [m]) u op paused := by
  obtain ⟨before, p, between, v, w, stage, rfl, hbefore, hstage, hopen, hpause, hp, hbetween,
    hsame⟩ := h
  exact ⟨before, p, between ++ [m], v, w, stage, by simp, hbefore, hstage, hopen, hpause, hp,
    hbetween.snoc hallowed hmove, hserial.trans hsame⟩

theorem PausedInVain.snoc (h : s.PausedInVain moves t) (hallowed : t.undisturbed m)
    (hmove : t.move? m = some u) : s.PausedInVain (moves ++ [m]) u := by
  obtain ⟨before, op, signal, after, v, w, stage, paused, settled, rfl, hsince, hstage, hsettled,
    hne, hstep, hafter⟩ := h
  exact ⟨before, op, signal, after ++ [m], v, w, stage, paused, settled, by simp, hsince, hstage,
    hsettled, hne, hstep, hafter.snoc hallowed hmove⟩

/-! ## What differs was told in vain -/

/-- No start is open. -/
def Settled (t : System) : Prop := ∀ ⦃op stage⦄, t.stage? op = some stage → stage.isOpen = false

theorem Settled.before (h : t.Settled) (a : s.Advances t op signal stage next told)
    (hstage : stage.isOpen = false) : s.Settled := by
  intro op' stage' hstage'
  by_cases hop : op' = op
  · subst hop
    obtain rfl := Option.some.inj (a.before.symm.trans hstage')
    exact hstage
  · exact h ((a.stage?_of_ne hop).trans hstage')

/-- While an operation is inside the gate without an open start, nobody has one. -/
theorem Ordered.settled_of_isInside (ho : s.Ordered) (hstage : s.stage? op = some stage)
    (hinside : stage.isInside = true) (hclosed : stage.isOpen = false) : s.Settled := by
  intro op' stage' hstage'
  by_contra hopen
  rw [Bool.not_eq_false] at hopen
  obtain rfl := ho.alone hstage hinside hstage' (Stage.isInside_of_isOpen hopen)
  obtain rfl := Option.some.inj (hstage.symm.trans hstage')
  rw [hclosed] at hopen
  cases hopen

/-- The record and the player agree, or what was told last while a start was open is lost, or is
about to be. -/
structure Heeded (s : System) (b : Bool) (moves : List Move) (t : System) : Prop where
  settled : t.Settled → ∀ {r}, t.controller.state.record = some r →
    r.paused = s.rests b moves ∨ s.PausedInVain moves t
  intended : ∀ {op stage paused r}, t.stage? op = some stage → stage.intended? = some paused →
    t.controller.state.record = some r → r.paused = paused ∨ s.PausedSince moves t op r.paused
  restored : ∀ {op stage r}, t.stage? op = some stage → stage.restored? = some r →
    r.paused = s.rests b moves ∨ s.PausedInVain moves t ∨
      s.PausedSince moves t op (s.rests b moves)

theorem Heeded.arrive (h : s.Heeded b moves t) (ho : t.Ordered) (run : s.Run obeying moves t)
    (request : Request) : s.Heeded b (moves ++ [.arrive request]) (t.arrive request) := by
  have hmove : t.move? (.arrive request) = some (t.arrive request) := rfl
  have hrests : s.rests b (moves ++ [.arrive request]) = s.rests b moves := rests_snoc run hmove b
  have hold : ∀ {op stage}, (t.arrive request).stage? op = some stage →
      stage = .begin request ∨ t.stage? op = some stage := by
    intro op stage hstage
    exact (ho.stage?_arrive_cases hstage).imp And.right And.right
  constructor
  · intro hsettled r hrecord
    rw [hrests]
    have hbefore : t.Settled :=
      fun op stage hstage => hsettled (ho.stage?_arrive_of_some hstage request)
    exact (h.settled hbefore hrecord).imp_right fun hvain => hvain.snoc ⟨trivial, rfl⟩ hmove
  · intro op stage paused r hstage hintended hrecord
    rcases hold hstage with rfl | hstage
    · cases hintended
    · exact (h.intended hstage hintended hrecord).imp_right
        fun hsince => hsince.snoc ⟨trivial, rfl⟩ hmove rfl
  · intro op stage r hstage hrestored
    rw [hrests]
    rcases hold hstage with rfl | hstage
    · cases hrestored
    · exact (h.restored hstage hrestored).imp_right fun hlost =>
        hlost.imp (fun hvain => hvain.snoc ⟨trivial, rfl⟩ hmove)
          fun hsince => hsince.snoc ⟨trivial, rfl⟩ hmove rfl

theorem Heeded.intended_advance (h : s.Heeded b moves t) (ho : t.Ordered)
    (run : s.Run obeying moves t) (a : t.Advances u op signal stage next told)
    (hallowed : t.obeying (.advance op signal))
    (hmove : t.move? (.advance op signal) = some u) {r : PlaybackRecord}
    (hstage' : u.stage? op' = some stage') (hintended : stage'.intended? = some paused)
    (hrecord : u.controller.state.record = some r) :
    r.paused = paused ∨ s.PausedSince (moves ++ [.advance op signal]) u op' r.paused := by
  have hopen := Stage.isOpen_of_intended? hintended
  rcases a.stage?_cases hstage' with ⟨rfl, rfl⟩ | ⟨hne, hold⟩
  · cases a.pauseMove hallowed with
    | keeps _ _ _ hnext =>
      rw [Stage.isLaunched_of_isOpen hopen] at hnext
      cases hnext
    | sets => cases hopen
    | installs hnew =>
      obtain rfl := Option.some.inj (hnew.symm.trans hrecord)
      exact .inl (Option.some.inj hintended)
    | fails => cases hintended
    | starts => cases hopen
    | startsAtRest hd =>
      rw [hd] at hrecord
      have hserial := a.serial_eq (ho.gate a.before rfl)
      exact (h.intended a.before hintended hrecord).imp_right
        fun hsince => hsince.snoc ⟨hallowed, a.pause? rfl⟩ hmove hserial
    | rests => cases hopen
    | rollsBack _ hnext =>
      rw [Stage.isLaunched_of_isOpen hopen] at hnext
      cases hnext
  · have hinside := Stage.isInside_of_isOpen hopen
    have hserial := a.serial_eq (ho.gate hold hinside)
    have hout := ho.not_isInside a.before hne hold hinside
    rcases (a.pauseMove hallowed).outside hout with ⟨hrest, hsame | hnone⟩ | ⟨p, rfl, hpause, hset⟩
    · have hpause := pause?_eq_none (a.rest?.trans hrest)
      exact (h.intended hold hintended (hsame.symm.trans hrecord)).imp_right
        fun hsince => hsince.snoc ⟨hallowed, hpause⟩ hmove hserial
    · rw [hnone] at hrecord
      cases hrecord
    · -- The pause is laid into the record that the start has made.
      obtain ⟨old, -, rfl⟩ := Option.map_eq_some_iff.mp (hset.symm.trans hrecord)
      exact .inr ⟨moves, _, [], t, u, stage', rfl, run, hold, hopen, a.tells hpause, hmove, .nil,
        hserial⟩

theorem Heeded.restored_advance (h : s.Heeded b moves t) (ho : t.Ordered)
    (run : s.Run obeying moves t) (a : t.Advances u op signal stage next told)
    (hallowed : t.obeying (.advance op signal))
    (hmove : t.move? (.advance op signal) = some u) {r : PlaybackRecord}
    (hstage' : u.stage? op' = some stage') (hrestored : stage'.restored? = some r) :
    r.paused = s.rests b (moves ++ [.advance op signal]) ∨
      s.PausedInVain (moves ++ [.advance op signal]) u ∨
      s.PausedSince (moves ++ [.advance op signal]) u op'
        (s.rests b (moves ++ [.advance op signal])) := by
  have hopen := Stage.isOpen_of_restored? hrestored
  rw [rests_snoc run hmove, a.rest?]
  rcases a.stage?_cases hstage' with ⟨rfl, rfl⟩ | ⟨hne, hold⟩
  · cases a.pauseMove hallowed with
    | keeps _ _ _ hnext =>
      rw [Stage.isLaunched_of_isOpen hopen] at hnext
      cases hnext
    | sets => cases hopen
    | installs =>
      -- Nobody else is inside the gate, so the record that is displaced has settled.
      rcases h.settled (ho.settled_of_isInside a.before rfl rfl) hrestored with heq | hvain
      · exact .inl heq
      · exact .inr (.inl (hvain.snoc ⟨hallowed, a.rest?⟩ hmove))
    | fails hd =>
      have hserial := a.serial_eq (ho.gate a.before rfl)
      refine (h.restored a.before hrestored).imp_right fun hlost => hlost.imp ?_ ?_
      · exact fun hvain => hvain.snoc ⟨hallowed, a.rest?⟩ hmove
      · exact fun hsince => hsince.snoc ⟨hallowed, a.pause? rfl⟩ hmove hserial
    | starts => cases hopen
    | startsAtRest => cases hrestored
    | rests => cases hopen
    | rollsBack _ hnext =>
      rw [Stage.isLaunched_of_isOpen hopen] at hnext
      cases hnext
  · have hinside := Stage.isInside_of_isOpen hopen
    have hserial := a.serial_eq (ho.gate hold hinside)
    have hout := ho.not_isInside a.before hne hold hinside
    rcases (a.pauseMove hallowed).outside hout with ⟨hrest, -⟩ | ⟨p, rfl, hpause, -⟩
    · rw [hrest]
      have hrest' := a.rest?.trans hrest
      refine (h.restored hold hrestored).imp_right fun hlost => hlost.imp ?_ ?_
      · exact fun hvain => hvain.snoc ⟨hallowed, hrest'⟩ hmove
      · exact fun hsince => hsince.snoc ⟨hallowed, pause?_eq_none hrest'⟩ hmove hserial
    · rw [← a.rest?, rest?_of_pause? (a.tells hpause)]
      exact .inr (.inr ⟨moves, _, [], t, u, stage', rfl, run, hold, hopen, a.tells hpause, hmove,
        .nil, hserial⟩)

/-- A start settles: either what was told last meanwhile is what it settles at, or it is lost. -/
theorem PausedSince.settles {settled : Bool} (h : s.PausedSince moves t op paused)
    (hstage : t.stage? op = some stage) (hsettled : stage.settled? signal = some settled)
    (hmove : t.move? (.advance op signal) = some u) :
    paused = settled ∨ s.PausedInVain (moves ++ [.advance op signal]) u := by
  by_cases heq : paused = settled
  · exact .inl heq
  · exact .inr ⟨moves, op, signal, [], t, u, stage, paused, settled, rfl, h, hstage, hsettled,
      fun h => heq h.symm, hmove, .nil⟩

theorem Heeded.settled_advance (h : s.Heeded b moves t)
    (run : s.Run obeying moves t) (a : t.Advances u op signal stage next told)
    (hallowed : t.obeying (.advance op signal))
    (hmove : t.move? (.advance op signal) = some u) {r : PlaybackRecord}
    (hsettled : u.Settled)
    (hrecord : u.controller.state.record = some r) :
    r.paused = s.rests b (moves ++ [.advance op signal]) ∨
      s.PausedInVain (moves ++ [.advance op signal]) u := by
  rw [rests_snoc run hmove, a.rest?]
  cases a.pauseMove hallowed with
  | keeps hrest hsame hstage =>
    rw [hrest]
    have hbefore := hsettled.before a hstage
    rcases hsame with hsame | hnone
    · exact (h.settled hbefore (hsame.symm.trans hrecord)).imp_right
        fun hvain => hvain.snoc ⟨hallowed, a.rest?.trans hrest⟩ hmove
    · rw [hnone] at hrecord
      cases hrecord
  | sets answer hstage hset =>
    obtain ⟨old, -, rfl⟩ := Option.map_eq_some_iff.mp (hset.symm.trans hrecord)
    rw [← a.rest?, rest?_of_pause? (a.tells hstage)]
    exact .inl rfl
  | installs => cases hsettled (a.stage?_self (by simp))
  | fails => cases hsettled (a.stage?_self (by simp))
  | starts hd =>
    rw [hd] at hrecord
    rcases h.intended a.before rfl hrecord with heq | hsince
    · exact .inl heq
    · exact hsince.settles a.before rfl hmove
  | startsAtRest => cases hsettled (a.stage?_self (by simp))
  | rests hd =>
    rw [hd] at hrecord
    rcases h.intended a.before rfl hrecord with heq | hsince
    · exact .inl heq
    · exact hsince.settles a.before rfl hmove
  | @rollsBack l displaced e next hback =>
    have hdisplaced : displaced = some r := hback.symm.trans hrecord
    have hsays : (Stage.rollBack l displaced e).settled? .go = some r.paused :=
      congrArg (Option.map _) hdisplaced
    rcases h.restored a.before hdisplaced with heq | hvain | hsince
    · exact .inl heq
    · exact .inr (hvain.snoc ⟨hallowed, a.rest?⟩ hmove)
    · exact (hsince.settles a.before hsays hmove).imp_left Eq.symm

theorem heeded_start (account : Account) (self : Nat) (words : RandomWords) (b : Bool) :
    let s := start (Controller.start account self words)
    s.Heeded b [] s where
  settled := nofun
  intended := fun h => by simp [start, stage?] at h
  restored := fun h => by simp [start, stage?] at h

theorem Heeded.run (h : s.Heeded b [] s) (ho : s.Ordered) (run : s.Run obeying moves t) :
    s.Heeded b moves t := by
  induction run with
  | nil => exact h
  | @snoc moves t u m run hallowed hmove ih =>
    have hot := ho.run run
    cases m with
    | arrive request =>
      obtain rfl : t.arrive request = u := by simpa [move?] using hmove
      exact ih.arrive hot run request
    | advance op signal =>
      obtain ⟨stage, next, told, a⟩ := advances_of_advance? hmove
      refine ⟨?_, ih.intended_advance hot run a hallowed hmove,
        ih.restored_advance hot run a hallowed hmove⟩
      intro hsettled r hrecord
      exact ih.settled_advance run a hallowed hmove hsettled hrecord

/-! ## What was told in vain differs -/

/-- While the start of the operation with this serial is open, its record says what was told last,
and so does the player as long as another record may come back. -/
structure Overlaid (t : System) (op n : Nat) (paused f : Bool) : Prop where
  serial : n ≤ t.controller.serial
  start : t.controller.serial = n → ∀ {stage}, t.stage? op = some stage → stage.start? = none
  current : t.controller.serial = n → ∀ {stage r}, t.stage? op = some stage →
    stage.isOpen = true → t.controller.state.record = some r → r.paused = paused
  restored : t.controller.serial = n → ∀ {stage d}, t.stage? op = some stage →
    stage.restored? = some d → f = paused

/-- The record that is current once no start is open is not as the player is. -/
structure Differs (t : System) (f : Bool) : Prop where
  settled : t.Settled → ∀ {r}, t.controller.state.record = some r → r.paused ≠ f
  restored : ∀ {op stage d}, t.stage? op = some stage → stage.restored? = some d → d.paused ≠ f

/-- What was told while the start was open is laid into its record. -/
theorem overlaid_of_pause? (hopen : stage.isOpen = true) (hstage : s.stage? op = some stage)
    (hpause : s.pause? m = some paused) (hmove : s.move? m = some t) (ho : s.Ordered) :
    t.Overlaid op s.controller.serial paused paused := by
  unfold System.pause? at hpause
  split at hpause
  · next op' =>
    obtain ⟨told, next, _, a⟩ := advances_of_advance? hmove
    have htells : told.pause? = some paused := by simpa [a.before] using hpause
    have hout := Stage.isInside_of_pause? htells
    have hinside := Stage.isInside_of_isOpen hopen
    have hne : op ≠ op' := by
      rintro rfl
      obtain rfl := Option.some.inj (a.before.symm.trans hstage)
      rw [hinside] at hout
      cases hout
    have hafter : ∀ {stage'}, t.stage? op = some stage' → stage' = stage := fun hstage' =>
      Option.some.inj (hstage'.symm.trans ((a.stage?_of_ne hne).trans hstage))
    have hrecord : t.controller.state.record =
        s.controller.state.record.map fun record => { record with paused } := by
      have hpm := Controller.pauseMove_of_step? a.step (Stage.refuses_ok _)
      rcases hpm.outside hout with ⟨hrest, -⟩ | ⟨p, -, hp, hset⟩
      · cases (a.rest?.trans hrest).symm.trans (rest?_of_pause? (a.tells htells))
      · obtain rfl := Option.some.inj (hp.symm.trans htells)
        exact hset
    constructor
    · exact Nat.le_of_eq (a.serial_eq (ho.gate hstage hinside)).symm
    · intro _ stage' hstage'
      rw [hafter hstage']
      exact Stage.start?_of_isOpen hopen
    · intro _ stage' r hstage' _ hr
      obtain ⟨old, -, rfl⟩ := Option.map_eq_some_iff.mp (hrecord.symm.trans hr)
      rfl
    · intro _ _ _ _ _
      rfl
  · cases hpause

theorem Overlaid.open_before (h : s.Overlaid op n paused f) (ho : s.Ordered)
    (a : s.Advances t op' signal stage next told) (hallowed : s.unpaused (.advance op' signal))
    (hn : t.controller.serial = n) (hstage' : t.stage? op = some stage')
    (hopen : stage'.isOpen = true) :
    s.controller.serial = n ∧ ∃ old, s.stage? op = some old ∧ old.isOpen = true ∧
      (t.controller.state.record = s.controller.state.record ∨
        t.controller.state.record = none) ∧
      ∀ d, stage'.restored? = some d →
        old.restored? = some d ∧ s.rest? (.advance op' signal) = none := by
  have hserial : s.controller.serial = n := by
    have := h.serial
    have := a.serial_le
    omega
  refine ⟨hserial, ?_⟩
  rw [a.rest?]
  rcases a.stage?_cases hstage' with ⟨rfl, rfl⟩ | ⟨hne, hold⟩
  · cases a.pauseMove hallowed.1 with
    | keeps _ _ _ hnext =>
      rw [Stage.isLaunched_of_isOpen hopen] at hnext
      cases hnext
    | sets => cases hopen
    | installs => cases h.start hserial a.before
    | fails hd => exact ⟨_, a.before, rfl, .inl (by rw [hd]), fun d hd => ⟨hd, rfl⟩⟩
    | starts => cases hopen
    | startsAtRest hd => exact ⟨_, a.before, rfl, .inl (by rw [hd]), nofun⟩
    | rests => cases hopen
    | rollsBack _ hnext =>
      rw [Stage.isLaunched_of_isOpen hopen] at hnext
      cases hnext
  · have hout := ho.not_isInside a.before hne hold (Stage.isInside_of_isOpen hopen)
    rcases (a.pauseMove hallowed.1).outside hout with ⟨hrest, hrecord⟩ | ⟨p, rfl, hpause, -⟩
    · exact ⟨stage', hold, hopen, hrecord, fun d hd => ⟨hd, hrest⟩⟩
    · cases (a.tells hpause).symm.trans hallowed.2

theorem Overlaid.advance (h : s.Overlaid op n paused f) (ho : s.Ordered)
    (a : s.Advances t op' signal stage next told)
    (hallowed : s.unpaused (.advance op' signal)) :
    t.Overlaid op n paused ((s.rest? (.advance op' signal)).getD f) := by
  constructor
  · exact Nat.le_trans h.serial a.serial_le
  · intro hn stage' hstage'
    have hbefore := h.serial
    have hgrow := a.serial_le
    rcases a.stage?_cases hstage' with ⟨rfl, rfl⟩ | ⟨-, hold⟩
    · rcases a.transition.numbersStart with ⟨-, hnone⟩ | ⟨hnew, -⟩
      · exact hnone
      · omega
    · exact h.start (by omega) hold
  · intro hn stage' r hstage' hopen hr
    obtain ⟨hs, old, hold, hopen', hsame | hnone, -⟩ :=
      h.open_before ho a hallowed hn hstage' hopen
    · exact h.current hs hold hopen' (hsame.symm.trans hr)
    · rw [hnone] at hr
      cases hr
  · intro hn stage' d hstage' hrestored
    obtain ⟨hs, old, hold, -, -, hback⟩ :=
      h.open_before ho a hallowed hn hstage' (Stage.isOpen_of_restored? hrestored)
    obtain ⟨hrestored', hrest⟩ := hback d hrestored
    rw [hrest]
    exact h.restored hs hold hrestored'

theorem Overlaid.arrive (h : s.Overlaid op n paused f) (ho : s.Ordered) (request : Request) :
    (s.arrive request).Overlaid op n paused f := by
  constructor
  · exact h.serial
  · intro hn stage hstage
    rcases ho.stage?_arrive_cases hstage with ⟨-, rfl⟩ | ⟨-, hold⟩
    · rfl
    · exact h.start hn hold
  · intro hn stage r hstage hopen hr
    rcases ho.stage?_arrive_cases hstage with ⟨-, rfl⟩ | ⟨-, hold⟩
    · cases hopen
    · exact h.current hn hold hopen hr
  · intro hn stage d hstage hrestored
    rcases ho.stage?_arrive_cases hstage with ⟨-, rfl⟩ | ⟨-, hold⟩
    · cases hrestored
    · exact h.restored hn hold hrestored

/-- A start that settles otherwise leaves a record that is not as the player is. -/
theorem Overlaid.settles {settled : Bool} (h : s.Overlaid op n paused f) (ho : s.Ordered)
    (a : s.Advances t op signal stage next told) (hn : s.controller.serial = n)
    (hallowed : s.obeying (.advance op signal))
    (hsettled : stage.settled? signal = some settled) (hne : settled ≠ paused) :
    t.Differs ((s.rest? (.advance op signal)).getD f) := by
  have hopen := Stage.isOpen_of_settled? hsettled
  have hothers : ∀ {op' stage'}, t.stage? op' = some stage' → op' ≠ op →
      stage'.isOpen = false := by
    intro op' stage' hstage' hop
    by_contra hopen'
    rw [Bool.not_eq_false] at hopen'
    have hold := (a.stage?_of_ne hop).symm.trans hstage'
    have hinside := Stage.isInside_of_isOpen hopen
    exact hop (ho.alone a.before hinside hold (Stage.isInside_of_isOpen hopen'))
  rw [a.rest?]
  have hfacts : next.isOpen = false ∧ ∀ {r}, t.controller.state.record = some r →
      r.paused ≠ (stage.rest? signal).getD f := by
    cases a.pauseMove hallowed with
    | keeps _ _ hstage =>
      rw [hstage] at hopen
      cases hopen
    | sets _ hstage =>
      rw [Stage.isOpen_eq_false (Stage.isLaunched_eq_false (Stage.isInside_of_pause? hstage))] at hopen
      cases hopen
    | installs => cases hopen
    | fails => simp [Stage.settled?] at hsettled
    | starts hd =>
      refine ⟨rfl, fun hr => ?_⟩
      rw [hd] at hr
      rw [h.current hn a.before rfl hr]
      cases hsettled
      exact hne.symm
    | startsAtRest => cases hsettled
    | rests hd =>
      refine ⟨rfl, fun hr => ?_⟩
      rw [hd] at hr
      rw [h.current hn a.before rfl hr]
      cases hsettled
      exact hne.symm
    | rollsBack hback hnext =>
      refine ⟨Stage.isOpen_eq_false hnext, fun hr => ?_⟩
      have hdisplaced := hback.symm.trans hr
      have hsays := (congrArg (Option.map PlaybackRecord.paused) hdisplaced).symm.trans hsettled
      rw [Option.some.inj hsays, h.restored hn a.before hdisplaced]
      exact hne
  constructor
  · intro _ r hr
    exact hfacts.2 hr
  · intro op' stage' d hstage' hrestored
    have hopen' := Stage.isOpen_of_restored? hrestored
    by_cases hop : op' = op
    · subst hop
      rcases a.stage?_cases hstage' with ⟨-, rfl⟩ | ⟨hop, -⟩
      · rw [hfacts.1] at hopen'
        cases hopen'
      · exact absurd rfl hop
    · rw [hothers hstage' hop] at hopen'
      cases hopen'

theorem Differs.arrive (h : s.Differs f) (ho : s.Ordered) (request : Request) :
    (s.arrive request).Differs f := by
  constructor
  · intro hsettled
    exact h.settled fun op stage hstage => hsettled (ho.stage?_arrive_of_some hstage request)
  · intro op stage d hstage hrestored
    rcases ho.stage?_arrive_cases hstage with ⟨-, rfl⟩ | ⟨-, hold⟩
    · cases hrestored
    · exact h.restored hold hrestored

theorem Differs.advance (h : s.Differs f) (ho : s.Ordered)
    (a : s.Advances t op signal stage next told)
    (hallowed : s.undisturbed (.advance op signal)) : t.Differs f := by
  have hrest : stage.rest? signal = none := a.rest?.symm.trans hallowed.2
  have hpm := a.pauseMove hallowed.1
  constructor
  · intro hsettled r hr
    cases hpm with
    | keeps _ hsame hstage =>
      rcases hsame with hsame | hnone
      · exact h.settled (hsettled.before a hstage) (hsame.symm.trans hr)
      · rw [hnone] at hr
        cases hr
    | sets _ hstage => cases (rest?_of_pause? (a.tells hstage)).symm.trans hallowed.2
    | installs => cases hsettled (a.stage?_self (by simp))
    | fails => cases hsettled (a.stage?_self (by simp))
    | starts => cases hrest
    | startsAtRest => cases hrest
    | rests => cases hrest
    | rollsBack hback => exact h.restored a.before (hback.symm.trans hr)
  · intro op' stage' d hstage' hrestored
    rcases a.stage?_cases hstage' with ⟨rfl, rfl⟩ | ⟨-, hold⟩
    · cases hpm with
      | installs => exact h.settled (ho.settled_of_isInside a.before rfl rfl) hrestored
      | fails => exact h.restored a.before hrestored
      | keeps _ _ _ hnext =>
        rw [Stage.isLaunched_of_isOpen (Stage.isOpen_of_restored? hrestored)] at hnext
        cases hnext
      | rollsBack _ hnext =>
        rw [Stage.isLaunched_of_isOpen (Stage.isOpen_of_restored? hrestored)] at hnext
        cases hnext
      | _ => cases hrestored
    · exact h.restored hold hrestored

theorem Overlaid.run (h : s.Overlaid op n paused f) (ho : s.Ordered)
    (run : s.Run unpaused moves t) : t.Overlaid op n paused (s.rests f moves) := by
  induction run with
  | nil => exact h
  | @snoc moves t u m run hallowed hmove ih =>
    rw [rests_snoc run hmove]
    cases m with
    | arrive request =>
      obtain rfl : t.arrive request = u := by simpa [move?] using hmove
      exact ih.arrive (ho.run run) request
    | advance op' signal =>
      obtain ⟨stage, next, told, a⟩ := advances_of_advance? hmove
      exact ih.advance (ho.run run) a hallowed

theorem rests_of_undisturbed (run : s.Run undisturbed moves t) (b : Bool) :
    s.rests b moves = b := by
  induction run with
  | nil => rfl
  | snoc run hallowed hmove ih =>
    rw [rests_snoc run hmove, hallowed.2, ih]
    rfl

theorem Differs.run (h : s.Differs f) (ho : s.Ordered) (run : s.Run undisturbed moves t) :
    t.Differs f := by
  refine ho.invariant (P := fun v => v.Differs f) h run ?_ ?_
  · intro v request ho h _
    exact h.arrive ho request
  · intro v w op signal stage next told ho h hallowed a
    exact h.advance ho a hallowed

theorem PausedInVain.differs (h : s.PausedInVain moves t) (ho : s.Ordered) (b : Bool) :
    t.Differs (s.rests b moves) := by
  obtain ⟨earlier, op, signal, after, w, x, stage, paused, settled, rfl, hsince, hstage, hsettled,
    hne, hmove, hafter⟩ := h
  obtain ⟨before, p, between, u, v, stage', rfl, hbefore, hstage', hopen, hpause, hp, hbetween,
    hserial⟩ := hsince
  have hou := ho.run hbefore
  have how := (hou.move hp).run hbetween
  have hover := (overlaid_of_pause? hopen hstage' hpause hp hou).run (hou.move hp) hbetween
  obtain ⟨stage, next, told, a⟩ := advances_of_advance? hmove
  obtain rfl := Option.some.inj (a.before.symm.trans hstage)
  have hobeys : w.obeying (.advance op signal) := by
    intro other hother
    obtain rfl := Option.some.inj (a.before.symm.trans hother)
    exact Stage.refuses_of_settled? hsettled
  have hdiffers := (hover.settles how a hserial hobeys hsettled hne).run (how.advance a) hafter
  have hrests : s.rests b (before ++ p :: between ++ .advance op signal :: after) =
      (w.rest? (.advance op signal)).getD (v.rests paused between) := by
    rw [List.append_assoc, List.cons_append, rests_append hbefore, rests_cons hp,
      rest?_of_pause? hpause, Option.getD_some, rests_append hbetween, rests_cons hmove,
      rests_of_undisturbed hafter]
  rw [hrests]
  exact hdiffers

/-! ## The exact condition -/

/-- With no operation in flight, the record of the current track says something else than the
player does exactly if somebody has paused or resumed while a start was open that then settled
otherwise, and the player has stayed as it was since. -/
theorem paused_ne_rests_iff (account : Account) (self : Nat) (words : RandomWords) (b : Bool)
    (run : (start (Controller.start account self words)).Run obeying moves t)
    (hquiet : t.Quiet) {r : PlaybackRecord} (hrecord : t.controller.state.record = some r) :
    r.paused ≠ (start (Controller.start account self words)).rests b moves ↔
      (start (Controller.start account self words)).PausedInVain moves t := by
  have ho := ordered_start account self words
  have hsettled : t.Settled := by
    intro op stage hstage
    rw [hquiet.stage? op] at hstage
    cases hstage
  constructor
  · intro hne
    have hheeded := (heeded_start account self words b).run ho run
    exact (hheeded.settled hsettled hrecord).resolve_left hne
  · intro hvain
    exact (hvain.differs ho b).settled hsettled hrecord

/-- Whether the player obeys in the move. -/
def isObeying (s : System) : Move → Bool
  | .arrive _ => true
  | .advance op signal => (s.stage? op).all fun stage => !stage.refuses signal

theorem obeying_of_isObeying (v : System) (m : Move) (h : v.isObeying m = true) :
    v.obeying m := by
  cases m with
  | arrive request => exact trivial
  | advance op signal =>
    intro stage hstage
    simpa [isObeying, hstage] using h

/-- A track plays, and another one is asked for; while the player is about to start it, somebody
pauses; then the start fails, and the first track comes back as one that is not paused. -/
theorem paused_ne_rests_iff_of_toggle :
    let moves : List Move := .arrive (.enqueue (.direct "x")) :: goes 0 6 ++
      .advance 0 (.played (.ok ())) :: goes 0 3 ++ .arrive (.playTrack (.direct "y") none) ::
      goes 1 4 ++ .arrive .togglePause :: goes 2 1 ++ .advance 2 (.played (.ok ())) ::
      .advance 1 (.played (.error (.player "gone"))) :: goes 1 2
    let t := blank.after moves
    blank.Run obeying moves t ∧ t.Quiet ∧
      t.controller.state.record =
        some ⟨{ Track.direct "x" with inPlaylist := true }, "x", false, 0, 1⟩ ∧
      blank.rests false moves = true ∧ blank.PausedInVain moves t := by
  intro moves t
  have hrun : blank.Run obeying moves t :=
    run_after_of_passes obeying_of_isObeying (by decide +kernel)
  have hquiet : t.Quiet := show t.inFlight = [] by decide +kernel
  have hrests : blank.rests false moves = true := by decide +kernel
  have hrecord : t.controller.state.record =
      some ⟨{ Track.direct "x" with inPlaylist := true }, "x", false, 0, 1⟩ := by decide +kernel
  have hiff := paused_ne_rests_iff ⟨default, ⟨[], .standard⟩, .empty⟩ 0 [] false hrun hquiet hrecord
  refine ⟨hrun, hquiet, hrecord, hrests, hiff.mp ?_⟩
  rw [show (start (Controller.start ⟨default, ⟨[], .standard⟩, .empty⟩ 0 [])).rests false moves =
    true from hrests]
  exact Bool.false_ne_true

end System

end Jukebox
