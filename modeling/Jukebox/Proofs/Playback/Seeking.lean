import Jukebox.Proofs.Playback.Playing
import Jukebox.Proofs.Queue.Parts

/-!
# How far a cascade can reach

Here nobody stops, and no track is taken out of the queue by hand; the resolver and the player
answer as they like.  A cascade may make as many attempts as the queue had tracks when it began.
This says of each step what it does to the queue (`Controller.Rearranges`), what becomes of a
track that was taken from it (`Controller.Transition.held`), and that a cascade which has
attempts left for so many tracks still has them after the step, unless it has taken one of them
(`Controller.reaches_of_step?`).
-/

namespace Jukebox

/-- The request adds tracks, asks for one, goes back, or leads on to the next. -/
def Request.seeks : Request → Bool
  | .enqueue _ | .addPlaylist _ | .playNext | .playTrack _ _ | .previous | .ended _
  | .failed _ _ => true
  | _ => false

/-- After the attempt with its track the search may make so many more. -/
def Purpose.Reaches (n : Nat) : Purpose → Prop
  | .search s _ => s.attempt + 1 + n ≤ s.budget
  | _ => False

namespace Stage

/-- Where such a request can lead. -/
def seeks : Stage → Bool
  | .begin request => request.seeks
  | .cancelPending | .stopAdmission _ | .retire _ | .halting _ | .resuming | .toggling _
  | .adjusting _ | .finished _ => false
  | _ => true

/-- The next step puts a track into the queue. -/
def puts : Stage → Bool
  | .begin (.enqueue _) | .begin (.addPlaylist _) | .giveBack _ _ _ => true
  | .commit ⟨_, _, _, .goBack _ _⟩ _ (some _) => true
  | _ => false

/-- The player has started the track. -/
def hasStarted : Stage → Bool
  | .pausing _ _ _ | .commit _ _ _ => true
  | _ => false

/-- The cascade may still make an attempt with each of so many tracks, or has started one. -/
def Reaches (n : Nat) : Stage → Prop
  | .measure _ | .pausing _ _ _ | .commit _ _ _ => True
  | .take s | .reported s => s.attempt + n ≤ s.budget
  | .ask l | .resolving l | .admission l _ | .install l _ _ | .starting l _ _ _
  | .rollBack l _ _ => l.purpose.Reaches n
  | _ => False

/-- The track that the operation has taken from the queue, while nobody has answered for it. -/
def held? : Stage → Option Track
  | .ask l | .resolving l | .admission l _ | .install l _ _ | .starting l _ _ _ =>
    match l.purpose with
    | .search _ _ => some l.track
    | _ => none
  | .giveBack _ track _ => some track
  | _ => none

/-- The track for which the resolver or the player answers. -/
def tried? : Stage → Signal → Option Track
  | .resolving l, .resolved _ | .starting l _ _ _, .played _ => some l.track
  | _, _ => none

theorem withdraws_eq_false {stage : Stage} (hseeks : stage.seeks = true)
    (hinside : stage.isInside = true → stage.hasStarted = true) : stage.withdraws = false := by
  cases stage with
  | rollBack l displaced e => cases hinside rfl
  | retire detaching => cases hseeks
  | _ => rfl

theorem isInside_of_hasStarted {stage : Stage} (h : stage.hasStarted = true) :
    stage.isInside = true := by
  cases stage <;> first | rfl | cases h

theorem isInside_of_isSettling {stage : Stage} (h : stage.isSettling = true) :
    stage.isInside = false := by
  cases stage <;> first | rfl | cases h

theorem isLaunched_of_hasStarted {stage : Stage} (h : stage.hasStarted = true) :
    stage.isLaunched = true := by
  cases stage <;> first | rfl | cases h

theorem Reaches.mono {n m : Nat} {stage : Stage} (h : stage.Reaches n) (hle : m ≤ n) :
    stage.Reaches m := by
  have hpurpose : ∀ {purpose : Purpose}, purpose.Reaches n → purpose.Reaches m := by
    intro purpose h
    cases purpose with
    | search s generation => exact Nat.le_trans (Nat.add_le_add_left hle _) h
    | _ => exact h.elim
  cases stage with
  | measure cascade => trivial
  | pausing l r displaced => trivial
  | commit l r displaced => trivial
  | take s => exact Nat.le_trans (Nat.add_le_add_left hle _) h
  | reported s => exact Nat.le_trans (Nat.add_le_add_left hle _) h
  | _ => first | exact hpurpose h | exact h.elim

theorem Reaches.isSettling {n : Nat} {stage : Stage} (h : stage.Reaches n) :
    stage.isSettling = false := by
  cases stage <;> first | rfl | exact h.elim

end Stage

namespace Controller

variable {c d : Controller} {op n : Nat} {stage next : Stage} {signal : Signal}
  {told : List PlaybackEvent}

/-! ## Where the requests lead -/

theorem begin_seeks {request : Request} (hseeks : request.seeks = true)
    (e : c.begin op request = (d, next, told)) :
    next.seeks = true ∨ ∃ answer, next = .finished answer := by
  have hidle : ∀ c : Controller, c.beginIfIdle.2.seeks = true ∨
      ∃ answer, c.beginIfIdle.2 = .finished answer := by
    intro c
    unfold beginIfIdle
    split
    · exact .inl rfl
    · exact .inr ⟨_, rfl⟩
  have hsignalled : ∀ serial told, (c.signalled serial told).2.1.seeks = true ∨
      ∃ answer, (c.signalled serial told).2.1 = .finished answer := by
    intro serial told
    unfold signalled
    split
    · split
      · exact .inl rfl
      · exact .inr ⟨_, rfl⟩
    · exact .inr ⟨_, rfl⟩
  obtain rfl : (c.begin op request).2.1 = next := by rw [e]
  cases request with
  | enqueue track => exact hidle _
  | addPlaylist tracks => exact hidle _
  | playNext => exact .inl rfl
  | playTrack track offset => exact .inl rfl
  | previous => exact .inl rfl
  | ended serial => exact hsignalled serial _
  | failed serial reason => exact hsignalled serial _
  | _ => cases hseeks

theorem Unburdened.seeks {cascade : Cascade} (h : Unburdened cascade stage) :
    stage.seeks = true := by
  cases h <;> rfl

theorem seeks_superseded (l : Launch) : (superseded l).seeks = true := by
  unfold superseded
  cases l.purpose <;> rfl

theorem Transition.seeks (h : Transition c op stage signal d next) (hseeks : stage.seeks = true) :
    next.seeks = true ∨ ∃ answer, next = .finished answer := by
  cases h with
  | begin e => exact begin_seeks hseeks e
  | measure => exact .inl (unburdened_nextAttempt c _).seeks
  | retry => exact .inl (unburdened_nextAttempt c _).seeks
  | close => exact .inr ⟨_, rfl⟩
  | rollBack => exact .inl (unburdened_failed _ _).seeks
  | commit => exact .inl (unburdened_succeeded _).seeks
  | cancelPending => cases hseeks
  | retire => cases hseeks
  | refuse => exact .inl (seeks_superseded _)
  | enterToStop => cases hseeks
  | cancel hstage => cases hstage <;> exact .inl (seeks_superseded _)
  | resolveFails => exact .inl (unburdened_failed _ _).seeks
  | halted => cases hseeks
  | pauseSet hstage => cases hstage <;> cases hseeks
  | pauseKept hstage => cases hstage <;> cases hseeks
  | _ => exact .inl rfl

/-- A step after which a start is open takes no record away. -/
theorem Transition.withdraws_eq_false (h : Transition c op stage signal d next)
    (hnext : next.isLaunched = true) : stage.withdraws = false := by
  cases h with
  | rollBack =>
    rw [Stage.isLaunched_eq_false (unburdened_failed _ _).isInside] at hnext
    cases hnext
  | retire => cases hnext
  | cancel hstage => cases hstage <;> rfl
  | pauseSet hstage => cases hstage <;> rfl
  | pauseKept hstage => cases hstage <;> rfl
  | _ => rfl

/-- An operation that has a start open has not just opened its cascade. -/
theorem Transition.cascade?_of_isLaunched (h : Transition c op stage signal d next)
    (hnext : next.isLaunched = true) : next.cascade? = stage.cascade? := by
  cases h.numbering with
  | keeps _ _ hsame => exact hsame
  | opens _ _ _ _ _ _ hbegin =>
    obtain ⟨request, rfl⟩ := hbegin
    cases h with
    | begin _ begins =>
      rw [Stage.isLaunched_eq_false begins.isInside] at hnext
      cases hnext
    | cancel hstage => cases hstage
    | pauseSet hstage => cases hstage
    | pauseKept hstage => cases hstage
  | cancels _ _ _ _ hstops =>
    obtain ⟨detaching, rfl⟩ := hstops
    cases hnext
  | closes _ _ hover =>
    subst hover
    cases hnext

/-- Only a start with the newest token comes inside the gate. -/
theorem Transition.enters (h : Transition c op stage signal d next) (hseeks : stage.seeks = true)
    (hout : stage.isInside = false) (hinside : next.isInside = true) :
    ∃ l r, stage = .admission l r ∧ l.token = c.token := by
  cases h with
  | begin _ begins =>
    rw [begins.isInside] at hinside
    cases hinside
  | measure =>
    rw [(unburdened_nextAttempt c _).isInside] at hinside
    cases hinside
  | retry =>
    rw [(unburdened_nextAttempt c _).isInside] at hinside
    cases hinside
  | enter _ htoken => exact ⟨_, _, rfl, htoken⟩
  | refuse =>
    rw [isInside_superseded] at hinside
    cases hinside
  | enterToStop => cases hseeks
  | cancel hstage =>
    rw [isInside_superseded] at hinside
    cases hinside
  | resolveFails =>
    rw [(unburdened_failed _ _).isInside] at hinside
    cases hinside
  | _ => first | exact absurd hinside Bool.false_ne_true | exact absurd hout.symm Bool.false_ne_true

/-- An operation whose track was started comes to its end. -/
theorem Transition.finishes (h : Transition c op stage signal d next)
    (hstage : stage.hasStarted = true ∨ stage.isSettling = true) :
    next.hasStarted = true ∨ next.isSettling = true ∨ ∃ answer, next = .finished answer := by
  rcases hstage with hstarted | hsettling
  · cases h with
    | commit =>
      right
      left
      unfold succeeded
      split <;> rfl
    | paused => exact .inl rfl
    | cancel hstage => cases hstage <;> cases hstarted
    | pauseSet hstage => cases hstage <;> cases hstarted
    | pauseKept hstage => cases hstage <;> cases hstarted
    | _ => cases hstarted
  · exact .inr (h.settles hsettling)

/-! ## What a step does to the queue -/

/-- A track that was taken from the queue stays with the operation until somebody has answered
for it, or it is given back. -/
theorem Transition.held (h : Transition c op stage signal d next) {track : Track}
    (hheld : stage.held? = some track) :
    next.held? = some track ∨ stage.tried? signal = some track ∨ stage.puts = true := by
  have hpurpose : ∀ {l : Launch}, (match l.purpose with
      | .search _ _ => some l.track
      | _ => none) = some track → l.track = track ∧ (superseded l).held? = some track := by
    intro l hl
    split at hl
    · next hpurpose =>
      obtain rfl := Option.some.inj hl
      simp [superseded, hpurpose, Stage.held?]
    · cases hl
  cases h with
  | giveBack => exact .inr (.inr rfl)
  | install => exact .inl hheld
  | enter => exact .inl hheld
  | refuse => exact .inl (hpurpose hheld).2
  | askDirect => exact .inl hheld
  | askResolver => exact .inl hheld
  | cancel hstage => cases hstage <;> exact .inl (hpurpose hheld).2
  | resolve => exact .inl hheld
  | resolveFails => exact .inr (.inl (congrArg some (hpurpose hheld).1))
  | startFails => exact .inr (.inl (congrArg some (hpurpose hheld).1))
  | started => exact .inr (.inl (congrArg some (hpurpose hheld).1))
  | startedAtRest => exact .inr (.inl (congrArg some (hpurpose hheld).1))
  | pauseSet hstage => cases hstage <;> cases hheld
  | pauseKept hstage => cases hstage <;> cases hheld
  | _ => cases hheld

/-- What a step does to the queue if it puts no track into it. -/
inductive Rearranges (c d : Controller) (stage next : Stage) : Prop
  | keeps (hitems : d.state.queue.items = c.state.queue.items)
      (hmode : d.state.mode = c.state.mode)
      (hempty : ∀ search, stage = .take search → c.state.queue.items = [])
  | takes {search : Search} {a : Advanced} (hstage : stage = .take search)
      (h : advance? c.state.queue.items c.state.mode c.state.words = some a)
      (hitems : d.state.queue.items = a.queue)
      (hmode : d.state.mode = { c.state.mode with playCount := a.playCount })
      (hheld : next.held? = some a.track)
  | refreshes {l : Launch} {r : ResolvedTrack} {displaced : Option PlaybackRecord}
      (hstage : stage = .commit l r displaced)
      (hitems : d.state.queue.items = (c.state.queue.refresh r.track).items)
      (hmode : d.state.mode = c.state.mode) (hnext : next.isInside = false)

theorem mode_closeCascade (s : PlaybackState) (cascade : Cascade) :
    (s.closeCascade cascade).mode = s.mode := by
  obtain ⟨record, queue, -, -, heq⟩ := s.closeCascade_eq cascade
  rw [heq]

theorem begin_mode {request : Request} (hseeks : request.seeks = true)
    (e : c.begin op request = (d, next, told)) : d.state.mode = c.state.mode := by
  have hidle : ∀ c : Controller, c.beginIfIdle.1.state.mode = c.state.mode := by
    intro c
    unfold beginIfIdle
    split <;> rfl
  have hsignalled : ∀ serial told, (c.signalled serial told).1.state.mode = c.state.mode := by
    intro serial told
    unfold signalled
    split
    · split <;> rfl
    · rfl
  obtain rfl : (c.begin op request).1 = d := by rw [e]
  cases request with
  | enqueue track => exact hidle _
  | addPlaylist tracks => exact hidle _
  | playNext => rfl
  | playTrack track offset => rfl
  | previous => rfl
  | ended serial => exact hsignalled serial _
  | failed serial reason => exact hsignalled serial _
  | _ => cases hseeks

theorem rearranges_begin {request : Request} (hseeks : request.seeks = true)
    (hputs : (Stage.begin request).puts = false) (e : c.begin op request = (d, next, told)) :
    Rearranges c d (.begin request) next := by
  have hqueue := begin_queue c op request
  rw [e] at hqueue
  have hsame : request.queueAfter c.state = c.state.queue := by
    cases request with
    | enqueue track => cases hputs
    | addPlaylist tracks => cases hputs
    | _ => first | rfl | cases hseeks
  exact .keeps (congrArg Queue.items (hqueue.trans hsame)) (begin_mode hseeks e) nofun

theorem rearranges_closeCascade {cascade : Cascade}
    (hempty : ∀ search, stage = .take search → c.state.queue.items = []) :
    Rearranges c (c.update (·.closeCascade cascade)) stage next :=
  .keeps (items_closeCascade c.state cascade) (mode_closeCascade c.state cascade) hempty

theorem items_displace_of_puts {l : Launch} {r : ResolvedTrack}
    {displaced : Option PlaybackRecord} (hputs : (Stage.commit l r displaced).puts = false)
    (q : Queue) : (displace l.purpose q displaced).items = q.items := by
  obtain ⟨track, offset, retries, purpose⟩ := l
  cases displaced with
  | none => rfl
  | some record =>
    cases purpose with
    | goBack cascade attempts => cases hputs
    | _ => rfl

theorem Transition.rearranges (h : Transition c op stage signal d next)
    (hseeks : stage.seeks = true) (hputs : stage.puts = false) : Rearranges c d stage next := by
  cases h with
  | begin e => exact rearranges_begin hseeks hputs e
  | take h =>
    obtain ⟨taken, hnext, hstate⟩ := Option.map_eq_some_iff.mp h
    obtain ⟨a, hadvance, rfl⟩ := Option.map_eq_some_iff.mp hnext
    cases hstate
    exact .takes rfl hadvance rfl rfl rfl
  | takeNothing h => exact rearranges_closeCascade fun _ _ => takeNext?_eq_none.mp h
  | giveBack => cases hputs
  | settle => exact rearranges_closeCascade nofun
  | close => exact rearranges_closeCascade nofun
  | takeBack h => exact .keeps (Queue.items_takeBack? h) rfl nofun
  | commit =>
    exact .refreshes rfl (items_displace_of_puts hputs _) rfl (unburdened_succeeded _).isInside
  | cancelPending => cases hseeks
  | retire => cases hseeks
  | enterToStop => cases hseeks
  | cancel hstage => cases hstage <;> exact .keeps rfl rfl nofun
  | halted => cases hseeks
  | pauseSet hstage => cases hstage <;> cases hseeks
  | pauseKept hstage => cases hstage <;> cases hseeks
  | _ => exact .keeps rfl rfl nofun

/-! ## The attempts that are left -/

theorem reaches_nextAttempt {search : Search} (htoken : search.cascade.token = c.token)
    (h : search.attempt + n ≤ search.budget) :
    n = 0 ∨ (c.nextAttempt search).1.Reaches n := by
  by_cases hbudget : search.attempt < search.budget
  · rcases nextAttempt_of_lt hbudget with ⟨hnext, -⟩ | ⟨-, hlost⟩
    · right
      rw [hnext]
      exact h
    · exact absurd htoken hlost
  · left
    omega

theorem reaches_failed {l : Launch} (h : l.purpose.Reaches n) (e : Error) :
    (failed l e).1.Reaches n := by
  unfold failed
  cases hpurpose : l.purpose with
  | search s generation =>
    rw [hpurpose] at h
    exact h
  | _ =>
    rw [hpurpose] at h
    exact h.elim

/-- A cascade that begins reaches all tracks that are in the queue. -/
theorem reaches_of_measure {cascade : Cascade} (htoken : cascade.token = c.token)
    (hn : n ≤ c.state.queue.items.length)
    (h : c.step? op (.measure cascade) signal = some (d, next, told)) :
    n = 0 ∨ next.Reaches n := by
  let search : Search :=
    ⟨cascade, Nat.max c.state.queue.length 1, 0, .start c.reportLimit⟩
  have hnext : (c.nextAttempt search).1 = next := by
    cases signal with
    | go =>
      simp only [step?, Stage.need, Option.ite_none_right_eq_some, Option.some.injEq, locked,
        Prod.mk.injEq] at h
      exact h.2.2.1
    | _ => cases h
  have hbudget : search.attempt + n ≤ search.budget := by
    have hle : n ≤ Nat.max c.state.queue.length 1 := Nat.le_trans hn (Nat.le_max_left _ _)
    simpa only [search, Nat.zero_add] using hle
  rw [← hnext]
  exact reaches_nextAttempt htoken hbudget

/-- With the newest token, a cascade that reaches so many tracks does so after the step, or it
has taken the first of them. -/
theorem reaches_of_step? (h : c.step? op stage signal = some (d, next, told))
    (hreaches : stage.Reaches n) (hn : n ≤ c.state.queue.items.length)
    (htoken : ∀ cascade, stage.cascade? = some cascade → cascade.token = c.token)
    (hopen : stage.hasStarted = false) :
    n = 0 ∨ next.Reaches n ∨ (∃ search, stage = .take search) ∧ next.Reaches (n - 1) := by
  have htransition := transition_of_step? h
  cases htransition with
  | measure => exact (reaches_of_measure (htoken _ rfl) hn h).imp_right .inl
  | @take search track state =>
    by_cases hzero : n = 0
    · exact .inl hzero
    · refine .inr (.inr ⟨⟨search, rfl⟩, ?_⟩)
      have hleft : search.attempt + n ≤ search.budget := hreaches
      show search.attempt + 1 + (n - 1) ≤ search.budget
      omega
  | takeNothing htake =>
    rw [takeNext?_eq_none.mp htake] at hn
    exact .inl (Nat.le_zero.mp hn)
  | install => exact .inr (.inl hreaches)
  | retry => exact (reaches_nextAttempt (htoken _ rfl) hreaches).imp_right .inl
  | rollBack => exact .inr (.inl (reaches_failed hreaches _))
  | enter => exact .inr (.inl hreaches)
  | refuse hlost => exact absurd (htoken _ rfl) hlost
  | askDirect => exact .inr (.inl hreaches)
  | askResolver => exact .inr (.inl hreaches)
  | cancel hstage hlost => cases hstage <;> exact absurd (htoken _ rfl) hlost
  | resolve => exact .inr (.inl hreaches)
  | resolveFails _ e => exact .inr (.inl (reaches_failed hreaches e))
  | startFails => exact .inr (.inl hreaches)
  | started => exact .inr (.inl trivial)
  | startedAtRest => exact .inr (.inl trivial)
  | pauseSet hstage => cases hstage <;> exact hreaches.elim
  | pauseKept hstage => cases hstage <;> exact hreaches.elim
  | _ => first | exact hreaches.elim | cases hopen

end Controller

end Jukebox
