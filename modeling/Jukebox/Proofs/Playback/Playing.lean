import Jukebox.Proofs.Playback.Order
import Jukebox.Proofs.Queue.Emptiness

/-!
# Requests that only play

Here tracks are added and played, and their ends are reported; nobody stops, goes back or
changes the queue otherwise, and every track can be resolved and is accepted by the player.
Then tokens and cascades go together, and of the many steps only few are left.  This says of
each of them how far the cascade is, whether the queue is empty, and which record is current.
-/

namespace Jukebox

/-- The request adds tracks, plays, or reports the end of a track. -/
def Request.plays : Request → Bool
  | .enqueue _ | .addPlaylist _ | .play | .playNext | .ended _ => true
  | _ => false

namespace Stage

/-- Where such a request can lead, with tracks from the queue of this generation. -/
def Plays (generation : Nat) : Stage → Prop
  | .begin request => request.plays = true
  | .measure _ | .take _ | .settle _ _ | .close _ _ _ | .resuming => True
  | .giveBack _ _ taken => taken = generation
  | .ask l | .resolving l | .admission l _ | .install l _ _ | .starting l _ _ _
  | .pausing l _ _ | .commit l _ _ => ∃ search, l.purpose = .search search generation
  | _ => False

/-- The resolver knows the track, and the player starts it. -/
def Accepts : Stage → Signal → Prop
  | .resolving _, .resolved reply => ∃ r, reply = .ok (some r)
  | .starting _ _ _ _, .played reply => reply = .ok ()
  | _, _ => True

/-- The cascade may still find a track and start it. -/
def isSearching : Stage → Bool
  | .measure _ | .take _ | .ask _ | .resolving _ | .admission _ _ | .install _ _ _ => true
  | _ => false

/-- The cascade is about to end. -/
def isSettling : Stage → Bool
  | .settle _ _ | .close _ _ _ => true
  | _ => false

theorem isSettling_eq_false {stage : Stage} (h : stage.isSearching = true) :
    stage.isSettling = false := by
  cases stage <;> first | rfl | cases h

/-- The operation has a track that it will give back, since it has lost its token. -/
def Owes (token : Nat) : Stage → Prop
  | .ask l | .resolving l | .admission l _ => l.token ≠ token
  | .giveBack _ _ _ => True
  | _ => False

/-- The next step puts a track into the queue. -/
def Refills : Stage → Prop
  | .giveBack _ _ _ | .begin (.enqueue _) => True
  | .begin (.addPlaylist tracks) => tracks ≠ []
  | _ => False

theorem accepts_of_refills {stage : Stage} (h : stage.Refills) (signal : Signal) :
    stage.Accepts signal := by
  cases stage <;> first | exact h.elim | exact trivial

/-- The next step takes the record away that is current, whichever that is. -/
def withdraws : Stage → Bool
  | .rollBack _ _ _ | .retire _ => true
  | _ => false

theorem Plays.withdraws {generation : Nat} {stage : Stage} (h : stage.Plays generation) :
    stage.withdraws = false := by
  cases stage <;> first | exact h.elim | rfl

end Stage

namespace Controller

variable {c d : Controller} {op : Nat} {stage next : Stage} {signal : Signal}
  {told : List PlaybackEvent}

/-! ## The first critical section -/

/-- A request that plays opens a cascade, or leaves the cascades alone. -/
inductive BeginsToPlay (c d : Controller) (next : Stage) : Prop
  | opens {cascade : Cascade} (hgeneration : d.state.generation = c.state.generation)
      (htoken : d.token = c.token + 1)
      (hcount : d.state.cascadeCount = c.state.cascadeCount + 1) (hnext : next = .measure cascade)
  | stays (hgeneration : d.state.generation = c.state.generation) (htoken : d.token = c.token)
      (hcount : d.state.cascadeCount = c.state.cascadeCount)
      (hnext : next = .begin .playNext ∨ next = .resuming ∨ ∃ answer, next = .finished answer)

theorem beginsToPlay_beginIfIdle (c : Controller) :
    BeginsToPlay c c.beginIfIdle.1 c.beginIfIdle.2 := by
  unfold beginIfIdle
  split
  · exact .opens rfl rfl rfl rfl
  · exact .stays rfl rfl rfl (.inr (.inr ⟨_, rfl⟩))

theorem begin_of_plays {request : Request} (hplays : request.plays = true)
    (e : c.begin op request = (d, next, told)) : BeginsToPlay c d next := by
  -- What was added to the queue does not matter here.
  have hadded : ∀ {c' d' : Controller} {next' : Stage}, BeginsToPlay c' d' next' →
      c'.state.generation = c.state.generation → c'.token = c.token →
      c'.state.cascadeCount = c.state.cascadeCount → BeginsToPlay c d' next' := by
    intro c' d' next' h hgeneration htoken hcount
    cases h with
    | opens hgen htok hcnt hnext =>
      exact .opens (hgen.trans hgeneration) (htok.trans (congrArg (· + 1) htoken))
        (hcnt.trans (congrArg (· + 1) hcount)) hnext
    | stays hgen htok hcnt hnext =>
      exact .stays (hgen.trans hgeneration) (htok.trans htoken) (hcnt.trans hcount) hnext
  cases request with
  | enqueue track =>
    cases e
    exact hadded (beginsToPlay_beginIfIdle _) rfl rfl rfl
  | addPlaylist tracks =>
    cases e
    exact hadded (beginsToPlay_beginIfIdle _) rfl rfl rfl
  | playNext =>
    cases e
    exact .opens rfl rfl rfl rfl
  | play =>
    simp only [begin] at e
    split at e
    · split at e
      · cases e
        exact .stays rfl rfl rfl (.inr (.inl rfl))
      · cases e
        exact .stays rfl rfl rfl (.inr (.inr ⟨_, rfl⟩))
    · cases e
      exact .stays rfl rfl rfl (.inl rfl)
  | ended serial =>
    simp only [begin, signalled] at e
    split at e
    · split at e
      · cases e
        exact .opens rfl rfl rfl rfl
      · cases e
        exact .stays rfl rfl rfl (.inr (.inr ⟨_, rfl⟩))
    · cases e
      exact .stays rfl rfl rfl (.inr (.inr ⟨_, rfl⟩))
  | _ => cases hplays

/-- Where a request that plays leads while nothing was played yet. -/
theorem begin_of_untouched {request : Request} (hplays : request.plays = true)
    (e : c.begin op request = (d, next, told)) (hrecord : c.state.record = none)
    (hcascade : c.state.cascade = none) (hitems : c.state.queue.items = []) :
    d.state.cascadeCount = c.state.cascadeCount + 1 ∨
      d.state.cascade = none ∧ d.state.queue.items = [] := by
  have hidle : ∀ c : Controller, c.state.record = none → c.state.cascade = none →
      c.beginIfIdle.1.state.cascadeCount = c.state.cascadeCount + 1 := by
    intro c hrecord hcascade
    simp [beginIfIdle, PlaybackState.isIdle, hrecord, hcascade, beginCascade, openCascade]
  cases request with
  | enqueue track =>
    cases e
    exact .inl (hidle _ hrecord hcascade)
  | addPlaylist tracks =>
    cases e
    exact .inl (hidle _ hrecord hcascade)
  | playNext =>
    cases e
    exact .inl rfl
  | play =>
    simp only [begin, hrecord] at e
    cases e
    exact .inr ⟨hcascade, hitems⟩
  | ended serial =>
    simp only [begin, signalled, hrecord] at e
    cases e
    exact .inr ⟨hcascade, hitems⟩
  | _ => cases hplays

/-! ## What is left of a step -/

theorem nextAttempt_of_lt {search : Search} (hbudget : search.attempt < search.budget) :
    (c.nextAttempt search).1 = .take search ∧ search.cascade.token = c.token ∨
      (c.nextAttempt search).1 = .close search.cascade (.ok .superseded) none ∧
        search.cascade.token ≠ c.token := by
  by_cases htoken : search.cascade.token = c.token
  · simp [nextAttempt, hbudget, isCancelled, htoken]
  · simp [nextAttempt, hbudget, isCancelled, htoken]

/-- The stages of requests that play are closed under steps. -/
theorem Transition.plays (h : Transition c op stage signal d next)
    (hplays : stage.Plays c.state.generation) (haccepts : stage.Accepts signal) :
    d.state.generation = c.state.generation ∧
      (next.Plays c.state.generation ∨ ∃ answer, next = .finished answer) := by
  have hsuperseded : ∀ l : Launch, (∃ search, l.purpose = .search search c.state.generation) →
      (superseded l).Plays c.state.generation := by
    rintro l ⟨search, hpurpose⟩
    simp [superseded, hpurpose, Stage.Plays]
  have hclose : ∀ cascade : Cascade,
      (c.state.closeCascade cascade).generation = c.state.generation := by
    intro cascade
    obtain ⟨record, queue, -, -, heq⟩ := c.state.closeCascade_eq cascade
    rw [heq]
  cases h with
  | begin e =>
    cases begin_of_plays hplays e with
    | opens hgeneration _ _ hnext =>
      subst hnext
      exact ⟨hgeneration, .inl trivial⟩
    | stays hgeneration _ _ hnext =>
      obtain rfl | rfl | ⟨answer, rfl⟩ := hnext
      · exact ⟨hgeneration, .inl rfl⟩
      · exact ⟨hgeneration, .inl trivial⟩
      · exact ⟨hgeneration, .inr ⟨answer, rfl⟩⟩
  | measure hcascade hbudget =>
    refine ⟨rfl, .inl ?_⟩
    rcases nextAttempt_of_lt hbudget with ⟨hnext, -⟩ | ⟨hnext, -⟩ <;> rw [hnext] <;> trivial
  | take h =>
    obtain ⟨taken, -, hstate⟩ := Option.map_eq_some_iff.mp h
    cases hstate
    exact ⟨rfl, .inl ⟨_, rfl⟩⟩
  | takeNothing => exact ⟨hclose _, .inl trivial⟩
  | giveBack =>
    refine ⟨?_, .inl trivial⟩
    simp only [update, PlaybackState.giveBack]
    split <;> rfl
  | settle => exact ⟨hclose _, .inl trivial⟩
  | close => exact ⟨hclose _, .inr ⟨_, rfl⟩⟩
  | takeBack => exact hplays.elim
  | takeBackNothing => exact hplays.elim
  | putBack => exact hplays.elim
  | retry => exact hplays.elim
  | install => exact ⟨rfl, .inl hplays⟩
  | rollBack => exact hplays.elim
  | @commit l r displaced =>
    obtain ⟨search, hpurpose⟩ := hplays
    refine ⟨rfl, .inl ?_⟩
    simp [succeeded, hpurpose, endSearch, Stage.Plays]
  | cancelPending => exact hplays.elim
  | retire => exact hplays.elim
  | enter => exact ⟨rfl, .inl hplays⟩
  | refuse => exact ⟨rfl, .inl (hsuperseded _ hplays)⟩
  | enterToStop => exact hplays.elim
  | askDirect => exact ⟨rfl, .inl hplays⟩
  | askResolver => exact ⟨rfl, .inl hplays⟩
  | cancel hstage => cases hstage <;> exact ⟨rfl, .inl (hsuperseded _ hplays)⟩
  | resolve => exact ⟨rfl, .inl hplays⟩
  | resolveFails hreply =>
    obtain ⟨r, hr⟩ := haccepts
    exact absurd hr (hreply r)
  | startFails => cases haccepts
  | started => exact ⟨rfl, .inl hplays⟩
  | startedAtRest => exact ⟨rfl, .inl hplays⟩
  | paused => exact ⟨rfl, .inl hplays⟩
  | halted => exact hplays.elim
  | pauseSet hstage =>
    cases hstage with
    | resuming => exact ⟨rfl, .inr ⟨_, rfl⟩⟩
    | toggling => exact hplays.elim
    | adjusting => exact hplays.elim
  | pauseKept => exact ⟨rfl, .inr ⟨_, rfl⟩⟩

/-- The token and the number of cascades change only when a cascade is opened. -/
theorem Transition.opens_of_plays (h : Transition c op stage signal d next)
    (hplays : stage.Plays c.state.generation) (haccepts : stage.Accepts signal) :
    d.token = c.token ∧ d.state.cascadeCount = c.state.cascadeCount ∨
      d.token = c.token + 1 ∧ d.state.cascadeCount = c.state.cascadeCount + 1 ∧
        ∃ cascade, next = .measure cascade := by
  cases h.numbering with
  | keeps htoken hcount => exact .inl ⟨htoken, hcount⟩
  | closes _ hd =>
    rw [hd]
    exact .inl ⟨rfl, closeCascade_count _ _⟩
  | cancels _ _ _ _ hstops =>
    obtain ⟨detaching, rfl⟩ := hstops
    obtain ⟨-, hnext | ⟨answer, hnext⟩⟩ := h.plays hplays haccepts
    · exact hnext.elim
    · cases hnext
  | opens _ _ htoken hcount _ _ hbegin =>
    obtain ⟨request, rfl⟩ := hbegin
    cases h with
    | begin e =>
      cases begin_of_plays hplays e with
      | opens _ _ _ hnext => exact .inr ⟨htoken, hcount, _, hnext⟩
      | stays _ _ hsame => omega
    | cancel hstage => cases hstage
    | pauseSet hstage => cases hstage
    | pauseKept hstage => cases hstage

/-- A step while nothing was played yet. -/
theorem Transition.untouched (h : Transition c op stage signal d next)
    (hplays : stage.Plays c.state.generation) (hstage : stage.cascade? = none)
    (hrecord : c.state.record = none) (hcascade : c.state.cascade = none)
    (hitems : c.state.queue.items = []) :
    d.state.cascadeCount = c.state.cascadeCount + 1 ∨
      d.state.record = none ∧ d.state.cascade = none ∧ d.state.queue.items = [] := by
  cases h with
  | begin e begins =>
    refine (begin_of_untouched hplays e hrecord hcascade hitems).imp_right ?_
    exact fun h => ⟨begins.frame.2.2.trans hrecord, h⟩
  | cancelPending => exact hplays.elim
  | retire => exact hplays.elim
  | enterToStop => exact hplays.elim
  | cancel hinterruptible => cases hinterruptible <;> cases hstage
  | halted => exact hplays.elim
  | pauseSet => exact .inr ⟨by simp [update, PlaybackState.setPaused, hrecord], hcascade, hitems⟩
  | pauseKept => exact .inr ⟨hrecord, hcascade, hitems⟩
  | _ => cases hstage

/-- What a step does to the record of the current track, unless it takes away any record. -/
inductive Sounds (c d : Controller) (stage : Stage) : Prop
  | keeps (hrecord : d.state.serial? = c.state.serial?)
  /-- A cascade that the end of the track has opened retires it. -/
  | ends {cascade : Cascade} (hstage : stage.cascade? = some cascade)
      (hended : cascade.ended = c.state.serial?) (hrecord : d.state.record = none)
  | starts {serial : Nat} (hstage : stage.start? = some serial)
      (hrecord : d.state.serial? = some serial)

theorem sounds_closeCascade {cascade : Cascade} (hstage : stage.cascade? = some cascade) :
    Sounds c (c.update (·.closeCascade cascade)) stage := by
  rcases c.state.closeCascade_cases cascade with ⟨⟨-, hserial⟩, heq⟩ | ⟨-, heq⟩
  · exact .ends hstage hserial.symm (by simp only [update, heq, (retire_frame _).1])
  · exact .keeps (by simp only [update, heq]; rfl)

theorem Transition.sounds (h : Transition c op stage signal d next)
    (hkeeps : stage.withdraws = false) : Sounds c d stage := by
  cases h with
  | begin e begins => exact .keeps (congrArg (Option.map _) begins.frame.2.2)
  | take h => exact .keeps (congrArg (Option.map _) (takeNext?_frame h).1)
  | takeNothing => exact sounds_closeCascade rfl
  | giveBack => exact .keeps (congrArg (Option.map _) (giveBack_frame _ _ _).1)
  | settle => exact sounds_closeCascade rfl
  | close => exact sounds_closeCascade rfl
  | install => exact .starts rfl rfl
  | rollBack => cases hkeeps
  | retire => cases hkeeps
  | pauseSet => exact .keeps (record_setPaused _ _ _ fun _ _ => rfl)
  | _ => exact .keeps rfl

theorem takeNext?_eq_none {s : PlaybackState} : s.takeNext? = none ↔ s.queue.items = [] :=
  Option.map_eq_none_iff.trans Queue.next?_eq_none

/-- What a step of a request that plays does to the queue, as far as it may be empty. -/
inductive Fills (c d : Controller) (stage next : Stage) : Prop
  | keeps (hitems : d.state.queue.items = [] ↔ c.state.queue.items = [])
  | refills (hstage : stage.Refills)
  | takes {search : Search} {l : Launch} (hstage : stage = .take search) (hnext : next = .ask l)
      (htoken : l.token = search.cascade.token) (hitems : c.state.queue.items ≠ [])

theorem fills_closeCascade (cascade : Cascade) :
    Fills c (c.update (·.closeCascade cascade)) stage next :=
  .keeps (by simp only [update, items_closeCascade])

theorem fills_begin {request : Request} (hplays : request.plays = true)
    (e : c.begin op request = (d, next, told)) : Fills c d (.begin request) next := by
  have hqueue := begin_queue c op request
  rw [e] at hqueue
  have hsame : d.state.queue = c.state.queue → Fills c d (.begin request) next :=
    fun h => .keeps (by rw [h])
  cases request with
  | enqueue track => exact .refills trivial
  | addPlaylist tracks =>
    by_cases hempty : tracks = []
    · subst hempty
      exact hsame hqueue
    · exact .refills hempty
  | play => exact hsame hqueue
  | playNext => exact hsame hqueue
  | ended serial => exact hsame hqueue
  | _ => cases hplays

theorem Transition.fills (h : Transition c op stage signal d next)
    (hplays : stage.Plays c.state.generation) : Fills c d stage next := by
  cases h with
  | begin e => exact fills_begin hplays e
  | @take search track state h =>
    refine .takes rfl rfl rfl ?_
    intro hitems
    rw [takeNext?_eq_none.mpr hitems] at h
    cases h
  | takeNothing => exact fills_closeCascade _
  | giveBack => exact .refills trivial
  | settle => exact fills_closeCascade _
  | close => exact fills_closeCascade _
  | takeBack => exact hplays.elim
  | putBack => exact hplays.elim
  | @commit l r displaced =>
    obtain ⟨search, hpurpose⟩ := hplays
    have hitems : (displace l.purpose (c.state.queue.refresh r.track) displaced).items =
        (c.state.queue.refresh r.track).items := by
      rw [hpurpose]
      cases displaced <;> rfl
    exact .keeps (by simp only [update, hitems, Queue.refresh_items_eq_nil])
  | retire => exact hplays.elim
  | _ => exact .keeps .rfl

theorem Transition.refills (h : Transition c op stage signal d next)
    (hplays : stage.Plays c.state.generation) (hrefills : stage.Refills) :
    d.state.queue.items ≠ [] := by
  cases h with
  | @begin request d next told e =>
    have hqueue := begin_queue c op request
    rw [e] at hqueue
    cases request with
    | enqueue track => exact hqueue ▸ Queue.add_items_ne_nil _ _ none
    | addPlaylist tracks => exact hqueue ▸ Queue.addAll_items_ne_nil_of_ne_nil hrefills _
    | _ => exact hrefills.elim
  | giveBack =>
    simp only [update, PlaybackState.giveBack, hplays.symm, if_true]
    exact Queue.add_items_ne_nil _ _ (some 0)
  | cancel hstage => cases hstage <;> exact hrefills.elim
  | pauseSet hstage => cases hstage <;> exact hrefills.elim
  | pauseKept hstage => cases hstage <;> exact hrefills.elim
  | _ => exact hrefills.elim

/-! ## How far a cascade is -/

/-- A cascade that has the newest token goes on searching, or finds the queue empty, or is
about to start a track. -/
theorem Transition.searches (h : Transition c op stage signal d next)
    (haccepts : stage.Accepts signal) (hsearching : stage.isSearching = true)
    (htoken : ∀ cascade, stage.cascade? = some cascade → cascade.token = c.token) :
    next.isSearching = true ∨
      (∃ search, stage = .take search ∧ c.state.queue.items = []) ∨
      ∃ serial, stage.start? = some serial ∧ d.state.serial? = some serial := by
  cases h with
  | begin => cases hsearching
  | measure hcascade hbudget =>
    rcases nextAttempt_of_lt hbudget with ⟨hnext, -⟩ | ⟨-, hlost⟩
    · exact .inl (by rw [hnext]; rfl)
    · exact absurd (htoken _ (congrArg some hcascade.symm)) hlost
  | take => exact .inl rfl
  | takeNothing h => exact .inr (.inl ⟨_, rfl, takeNext?_eq_none.mp h⟩)
  | install => exact .inr (.inr ⟨_, rfl, rfl⟩)
  | enter => exact .inl rfl
  | refuse hlost => exact absurd (htoken _ rfl) hlost
  | askDirect => exact .inl rfl
  | askResolver => exact .inl rfl
  | cancel hstage hlost => cases hstage <;> exact absurd (htoken _ rfl) hlost
  | resolve => exact .inl rfl
  | resolveFails hreply =>
    obtain ⟨r, hr⟩ := haccepts
    exact absurd hr (hreply r)
  | pauseSet hstage => cases hstage <;> cases hsearching
  | pauseKept hstage => cases hstage <;> cases hsearching
  | _ => cases hsearching

/-- A cascade that finds the queue empty is about to end. -/
theorem Transition.settles_of_items_eq_nil {search : Search}
    (h : Transition c op (.take search) signal d next) (hitems : c.state.queue.items = []) :
    next.isSettling = true := by
  cases h with
  | take h =>
    rw [takeNext?_eq_none.mpr hitems] at h
    cases h
  | takeNothing => rfl
  | cancel hstage => cases hstage
  | pauseSet hstage => cases hstage
  | pauseKept hstage => cases hstage

theorem Transition.settles (h : Transition c op stage signal d next)
    (hsettling : stage.isSettling = true) :
    next.isSettling = true ∨ ∃ answer, next = .finished answer := by
  cases h with
  | settle => exact .inl rfl
  | close => exact .inr ⟨_, rfl⟩
  | cancel hstage => cases hstage <;> cases hsettling
  | pauseSet hstage => cases hstage <;> cases hsettling
  | pauseKept hstage => cases hstage <;> cases hsettling
  | _ => cases hsettling

/-- An operation that has lost its token gives its track back in the end. -/
theorem Transition.owes (h : Transition c op stage signal d next)
    (hplays : stage.Plays c.state.generation) (haccepts : stage.Accepts signal)
    (howes : stage.Owes c.token) : next.Owes c.token ∨ d.state.queue.items ≠ [] := by
  have hsuperseded : ∀ l : Launch, (∃ search, l.purpose = .search search c.state.generation) →
      (superseded l).Owes c.token := by
    rintro l ⟨search, hpurpose⟩
    simp [superseded, hpurpose, Stage.Owes]
  cases h with
  | giveBack =>
    refine .inr ?_
    simp only [update, PlaybackState.giveBack, hplays.symm, if_true]
    exact Queue.add_items_ne_nil _ _ (some 0)
  | enter hgate htoken => exact absurd htoken howes
  | refuse => exact .inl (hsuperseded _ hplays)
  | askDirect => exact .inl howes
  | askResolver => exact .inl howes
  | cancel hstage => cases hstage <;> exact .inl (hsuperseded _ hplays)
  | resolve => exact .inl howes
  | resolveFails hreply =>
    obtain ⟨r, hr⟩ := haccepts
    exact absurd hr (hreply r)
  | pauseSet hstage => cases hstage <;> exact howes.elim
  | pauseKept hstage => cases hstage <;> exact howes.elim
  | _ => exact howes.elim

end Controller

end Jukebox
