import Jukebox.Proofs.Playback.Paused
import Jukebox.Proofs.Presence

/-!
# When the music rests by itself

Operations run one after the other, with automatic pause, and nobody pauses or resumes by hand.  A
track that starts rests if the bot is in a channel where nobody listens.  Whenever somebody goes to
another channel later, the listeners that are counted then decide whether it rests or goes on, and
here the bot does not ask whether it is in a channel itself.  So `System.rests_iff_unheard` has two
cases: where the bot knows its channel, the track rests exactly if nobody listens there; where it
knows of none, exactly if it has noticed somebody else since the track is current.
-/

namespace Jukebox

namespace Presence

variable {p : Presence} {event : PresenceEvent} {roster : Roster} {q : Presence × Option Bool}

/-! ## What the listeners decide -/

/-- The bot's own arrivals and departures decide nothing; everything else decides by the
listeners that are counted then, whether or not the bot knows its channel. -/
theorem Applies.decides (h : p.Applies event roster q) (hauto : p.autoPause = true) :
    event.client = p.self ∧ q = (p, none) ∨
      q.2 = some q.1.members.isEmpty ∧
        (event.client ≠ p.self ∧ q.1.ownChannel = p.ownChannel ∨
          q.1.ownChannel.isSome = true) := by
  have hdecision : ∀ r : Presence, r.autoPause = p.autoPause →
      r.decision = some r.members.isEmpty := by
    intro r hr
    rw [decision, hr, if_pos hauto]
  cases h with
  | ignored hself => exact .inl ⟨hself, rfl⟩
  | rebuilt target => exact .inr ⟨hdecision _ rfl, .inr rfl⟩
  | joined client hother => exact .inr ⟨hdecision _ rfl, .inl ⟨hother, rfl⟩⟩
  | leaves client hother => exact .inr ⟨hdecision _ rfl, .inl ⟨hother, rfl⟩⟩
  | stays hother => exact .inr ⟨hdecision _ rfl, .inl ⟨hother, rfl⟩⟩

/-- Nobody is counted while the bot knows of no channel. -/
theorem Applies.members_of_none (h : p.Applies event roster q)
    (hnone : p.ownChannel = none → p.members = []) (hq : q.1.ownChannel = none) :
    q.1.members = [] := by
  cases h with
  | ignored => exact hnone hq
  | rebuilt target => cases hq
  | joined client hother hown =>
    have hq' : p.ownChannel = none := hq
    rw [hq'] at hown
    cases hown
  | leaves client hother =>
    show p.members.filter _ = []
    rw [hnone hq, List.filter_nil]
  | stays => exact hnone hq

end Presence

/-- The listeners after the first critical section of a request. -/
def Request.presenceAfter (p : Presence) : Request → Presence
  | .presence event roster => (p.apply event roster).1
  | .detach => p.reset
  | _ => p

namespace Stage

/-- The listeners after a step. -/
def presenceAfter (p : Presence) : Stage → Presence
  | .begin request => request.presenceAfter p
  | _ => p

/-- The bot has lost its channel, and the record is to be retired. -/
def isDetaching : Stage → Bool
  | .begin .detach | .cancelPending => true
  | .stopAdmission detaching | .retire detaching => detaching
  | _ => false

/-- Somebody's channel has changed. -/
def isPresence : Stage → Bool
  | .begin (.presence _ _) => true
  | _ => false

/-- What the record says once the player has answered. -/
def due (stage : Stage) (r : PlaybackRecord) : Bool := stage.pause?.getD r.paused

theorem eq_of_isPresence {stage : Stage} (h : stage.isPresence = true) :
    ∃ event roster, stage = .begin (.presence event roster) := by
  unfold isPresence at h
  split at h
  · exact ⟨_, _, rfl⟩
  · cases h

theorem presenceAfter_eq {stage : Stage} (hpresence : stage.isPresence = false)
    (hdetaching : stage.isDetaching = false) (p : Presence) : stage.presenceAfter p = p := by
  cases stage with
  | begin request =>
    cases request with
    | presence => cases hpresence
    | detach => cases hdetaching
    | _ => rfl
  | _ => rfl

theorem autoPause_presenceAfter (stage : Stage) (p : Presence) :
    (stage.presenceAfter p).autoPause = p.autoPause := by
  cases stage with
  | begin request =>
    cases request with
    | presence event roster => exact (p.apply_frame event roster).2
    | _ => rfl
  | _ => rfl

theorem members_presenceAfter {stage : Stage} {p : Presence}
    (hnone : p.ownChannel = none → p.members = [])
    (h : (stage.presenceAfter p).ownChannel = none) : (stage.presenceAfter p).members = [] := by
  cases stage with
  | begin request =>
    cases request with
    | presence event roster => exact (p.applies_apply event roster).members_of_none hnone h
    | detach => rfl
    | _ => exact hnone h
  | _ => exact hnone h

theorem due_of_pause?_eq_none {stage : Stage} (h : stage.pause? = none) (r : PlaybackRecord) :
    stage.due r = r.paused := by
  rw [due, h]
  rfl

end Stage

namespace Controller

variable {c d : Controller} {op : Nat} {stage next : Stage} {signal : Signal} {request : Request}

/-! ## What a step does to the listeners -/

theorem presence_closeCascade (s : PlaybackState) (cascade : Cascade) :
    (s.closeCascade cascade).presence = s.presence := by
  obtain ⟨record, queue, -, -, heq⟩ := s.closeCascade_eq cascade
  rw [heq]

theorem presence_beginIfIdle (c : Controller) :
    c.beginIfIdle.1.state.presence = c.state.presence := by
  unfold beginIfIdle
  split <;> rfl

theorem presence_signalled (c : Controller) (serial : Nat) (told : Track → List PlaybackEvent) :
    (c.signalled serial told).1.state.presence = c.state.presence := by
  unfold signalled
  split
  · split <;> rfl
  · rfl

theorem presence_setPlaylist (s : PlaybackState) (playlist : PlaylistMeta) (tracks : List Track) :
    (s.setPlaylist playlist tracks).presence = s.presence := by
  unfold PlaybackState.setPlaylist
  dsimp only
  split <;> rfl

theorem begin_presence (c : Controller) (op : Nat) (request : Request) :
    (c.begin op request).1.state.presence = request.presenceAfter c.state.presence := by
  cases request with
  | play =>
    simp only [begin]
    split
    · split <;> rfl
    · rfl
  | enqueue track => exact presence_beginIfIdle _
  | addPlaylist tracks => exact presence_beginIfIdle _
  | stop bySystem => cases bySystem <;> rfl
  | ended serial => exact presence_signalled c serial _
  | failed serial reason => exact presence_signalled c serial _
  | togglePause =>
    simp only [begin]
    split <;> rfl
  | presence event roster =>
    simp only [begin]
    split
    · split <;> rfl
    · rfl
  | exchange i j =>
    simp only [begin]
    split <;> rfl
  | remove index =>
    simp only [begin]
    split <;> rfl
  | restore snapshot how => cases how <;> rfl
  | setPlaylist playlist tracks => exact presence_setPlaylist c.state playlist tracks
  | _ => rfl

theorem Transition.presence (h : Transition c op stage signal d next) :
    d.state.presence = stage.presenceAfter c.state.presence := by
  cases h with
  | @begin request _ _ _ e =>
    have hpresence := begin_presence c op request
    rw [e] at hpresence
    exact hpresence
  | take h =>
    obtain ⟨queue, mode, words, rfl⟩ := PlaybackState.takeNext?_eq h
    rfl
  | takeNothing => exact presence_closeCascade _ _
  | @giveBack cascade track generation =>
    obtain ⟨queue, heq⟩ := c.state.giveBack_eq track generation
    rw [update, heq]
    rfl
  | settle => exact presence_closeCascade _ _
  | close => exact presence_closeCascade _ _
  | retire =>
    obtain ⟨queue, -, heq⟩ := c.state.retire_eq
    rw [update, heq]
    rfl
  | pauseSet hstage => cases hstage <;> rfl
  | pauseKept hstage => cases hstage <;> rfl
  | cancel hstage => cases hstage <;> rfl
  | _ => rfl

/-! ## Who pauses and resumes -/

/-- Nobody pauses or resumes by hand with this request. -/
def HandsOff (c : Controller) (request : Request) : Prop :=
  request ≠ .togglePause ∧
    (request = .play → ∀ r, c.state.record = some r → r.paused = false)

/-- What is decided for the listeners is what the record will say. -/
theorem due_presence {r : PlaybackRecord} (hrecord : c.state.record = some r) (op : Nat)
    (event : PresenceEvent) (roster : Roster) :
    (c.begin op (.presence event roster)).2.1.due r =
      (c.state.presence.apply event roster).2.getD r.paused := by
  simp only [begin]
  split
  · next paused record hdecision hsome =>
    obtain rfl := Option.some.inj (hsome.symm.trans hrecord)
    rw [hdecision]
    split
    · next heq => exact heq
    · rfl
  · next hnot =>
    cases hdecision : (c.state.presence.apply event roster).2 with
    | none => rfl
    | some paused => exact absurd hrecord (hnot paused r hdecision)

theorem Transition.due_presence {event : PresenceEvent} {roster : Roster}
    (h : Transition c op (.begin (.presence event roster)) signal d next) {r : PlaybackRecord}
    (hrecord : c.state.record = some r) :
    signal = .go ∧ next.due r = (c.state.presence.apply event roster).2.getD r.paused := by
  generalize hstage : Stage.begin (.presence event roster) = stage at h
  cases h with
  | begin e =>
    cases hstage
    refine ⟨rfl, ?_⟩
    have hdue := Controller.due_presence hrecord op event roster
    rw [e] at hdue
    exact hdue
  | cancel hcancel => subst hstage; cases hcancel
  | pauseSet hkeeps => subst hstage; cases hkeeps
  | pauseKept hkeeps => subst hstage; cases hkeeps
  | _ => cases hstage

theorem pause?_begin (h : c.HandsOff request)
    (hpresence : (Stage.begin request).isPresence = false) (op : Nat) :
    (c.begin op request).2.1.pause? = none := by
  cases request with
  | presence event roster => cases hpresence
  | togglePause => exact absurd rfl h.1
  | play =>
    simp only [begin]
    split
    · next r hrecord =>
      rw [if_neg (by simp [h.2 rfl r hrecord])]
      rfl
    · rfl
  | enqueue track =>
    simp only [begin, beginIfIdle]
    split <;> rfl
  | addPlaylist tracks =>
    simp only [begin, beginIfIdle]
    split <;> rfl
  | stop bySystem => cases bySystem <;> rfl
  | ended serial =>
    simp only [begin, signalled]
    split
    · split <;> rfl
    · rfl
  | failed serial reason =>
    simp only [begin, signalled]
    split
    · split <;> rfl
    · rfl
  | exchange i j =>
    simp only [begin]
    split <;> rfl
  | remove index =>
    simp only [begin]
    split <;> rfl
  | _ => rfl

theorem Unburdened.pause? {cascade : Cascade} (h : Unburdened cascade stage) :
    stage.pause? = none := by
  cases h <;> rfl

theorem pause?_superseded (l : Launch) : (superseded l).pause? = none := by
  unfold superseded
  cases l.purpose <;> rfl

/-- Nothing but a changed channel leads to a pause that the lock is kept for. -/
theorem Transition.pause?_next (h : Transition c op stage signal d next)
    (hhands : ∀ request, stage = .begin request → c.HandsOff request)
    (hpresence : stage.isPresence = false) : next.pause? = none := by
  cases h with
  | @begin request _ _ _ e =>
    have hnone := pause?_begin (hhands request rfl) hpresence op
    rw [e] at hnone
    exact hnone
  | measure => exact (unburdened_nextAttempt c _).pause?
  | retry => exact (unburdened_nextAttempt c _).pause?
  | rollBack => exact (unburdened_failed _ _).pause?
  | commit => exact (unburdened_succeeded _).pause?
  | refuse => exact pause?_superseded _
  | cancel => exact pause?_superseded _
  | resolveFails => exact (unburdened_failed _ _).pause?
  | _ => rfl

/-- The player has not been told to rest or to go on if it stays as it was. -/
theorem Transition.pause?_eq_none (h : Transition c op stage signal d next)
    (hobeys : stage.refuses signal = false) (hrest : stage.rest? signal = none) :
    stage.pause? = none := by
  cases h with
  | cancel hcancel => cases hcancel <;> rfl
  | pauseSet hkeeps => cases hkeeps <;> cases hrest
  | pauseKept hkeeps => cases hkeeps <;> cases hobeys
  | _ => rfl

/-- The only request that another one leads to is to play what comes next. -/
theorem Transition.request_eq (h : Transition c op stage signal d (.begin request)) :
    request = .playNext := by
  generalize hnext : Stage.begin request = next at h
  -- A stage that belongs to a cascade is not a request.
  have hnot : ∀ {cascade}, next.cascade? = some cascade → request = .playNext := by
    intro cascade hcascade
    subst hnext
    cases hcascade
  cases h with
  | begin e begins =>
    subst hnext
    cases begins with
    | opens _ _ hnext => rcases hnext with h | h | ⟨_, _, h⟩ <;> cases h
    | holds _ hnext => rcases hnext with h | ⟨_, h⟩ | ⟨_, h⟩ <;> cases h
    | keeps _ hnext =>
      rcases hnext with h | h | ⟨_, h⟩ <;> cases h
      rfl
  | measure => exact hnot (unburdened_nextAttempt c _).cascade?
  | retry => exact hnot (unburdened_nextAttempt c _).cascade?
  | rollBack => exact hnot (unburdened_failed _ _).cascade?
  | commit => exact hnot (unburdened_succeeded _).cascade?
  | refuse => exact hnot (cascade?_superseded _)
  | cancel => exact hnot (cascade?_superseded _)
  | resolveFails => exact hnot (unburdened_failed _ _).cascade?
  | _ => cases hnext

/-- Once the bot has lost its channel, the record is retired. -/
theorem Transition.detaches (h : Transition c op stage signal d next)
    (hstage : stage.isDetaching = true) : next.isDetaching = true ∨ d.state.record = none := by
  cases h with
  | @begin request _ _ _ e =>
    cases request with
    | detach =>
      cases e
      exact .inl rfl
    | _ => cases hstage
  | cancelPending => exact .inl rfl
  | enterToStop => exact .inl hstage
  | retire => exact .inr (retire_frame _).1
  | cancel hcancel => cases hcancel <;> cases hstage
  | pauseSet hkeeps => cases hkeeps <;> cases hstage
  | pauseKept hkeeps => cases hkeeps <;> cases hstage
  | _ => cases hstage

end Controller

namespace System

open Controller (HandsOff)

variable {s t u : System} {op op' : Nat} {signal : Signal} {stage stage' next : Stage}
  {told : List PlaybackEvent} {moves : List Move} {m : Move} {n : Nat} {paused : Bool}

/-! ## Operations one after the other -/

/-- A request comes in when nothing runs, nobody pauses or resumes by hand, and the player does
not refuse to rest or to go on. -/
def automatic (s : System) : Move → Prop
  | .arrive request => s.Quiet ∧ s.controller.HandsOff request
  | .advance op signal => s.obeying (.advance op signal)

/-- In the move the bot takes in that somebody else has changed the channel, while it knows of no
channel of its own and the track with this serial is current. -/
def Notices (s : System) (m : Move) (n : Nat) : Prop :=
  ∃ op event roster, m = .advance op .go ∧
    s.stage? op = some (.begin (.presence event roster)) ∧
    s.controller.state.serial? = some n ∧ s.controller.state.presence.ownChannel = none ∧
    event.client ≠ s.controller.state.presence.self

/-- Somebody was noticed on the run. -/
def Noticed (s : System) (moves : List Move) (n : Nat) : Prop :=
  ∃ before m after u, moves = before ++ m :: after ∧ s.Run automatic before u ∧ u.Notices m n

/-- The track with this serial rests exactly if nobody listens where the bot is, or if the bot
knows of no channel of its own and has noticed somebody. -/
def Unheard (s : System) (moves : List Move) (t : System) (n : Nat) (paused : Bool) : Prop :=
  paused = true ↔
    t.controller.state.presence.ownChannel.isSome = true ∧
        t.controller.state.presence.members = [] ∨
      t.controller.state.presence.ownChannel = none ∧ s.Noticed moves n

theorem noticed_snoc_iff (run : s.Run automatic moves t) :
    s.Noticed (moves ++ [m]) n ↔ s.Noticed moves n ∨ t.Notices m n := by
  constructor
  · rintro ⟨before, m', after, u, hmoves, hbefore, hnotices⟩
    rcases after.eq_nil_or_concat with rfl | ⟨after, last, rfl⟩
    · obtain ⟨rfl, hm⟩ := List.append_inj' hmoves rfl
      obtain rfl := List.singleton_inj.mp hm
      obtain rfl := hbefore.target_unique run
      exact .inr hnotices
    · rw [List.concat_eq_append, ← List.cons_append, ← List.append_assoc] at hmoves
      obtain ⟨rfl, -⟩ := List.append_inj' hmoves rfl
      exact .inl ⟨before, m', after, u, rfl, hbefore, hnotices⟩
  · rintro (⟨before, m', after, u, rfl, hbefore, hnotices⟩ | hnotices)
    · exact ⟨before, m', after ++ [m], u, by simp, hbefore, hnotices⟩
    · exact ⟨moves, m, [], t, rfl, run, hnotices⟩

/-- The track that was current when somebody was noticed had started before. -/
theorem Noticed.mem_starts (h : s.Noticed moves n) (ho : s.Ordered)
    (run : s.Run automatic moves t) : n ∈ t.starts := by
  obtain ⟨before, m, after, u, rfl, hbefore, op, event, roster, -, -, hcurrent, -⟩ := h
  obtain ⟨v, hfirst, hrest⟩ := run.split
  obtain rfl := hfirst.target_unique hbefore
  have hov := ho.run hfirst
  exact hov.mem_starts (hov.current hcurrent) hrest

/-- A step on which nobody is noticed and no channel changes keeps the rule. -/
theorem Unheard.snoc (h : s.Unheard moves t n paused) (run : s.Run automatic moves t)
    (hpresence : u.controller.state.presence = t.controller.state.presence)
    (hm : ¬t.Notices m n) : s.Unheard (moves ++ [m]) u n paused := by
  rw [Unheard, hpresence, noticed_snoc_iff run, or_iff_left hm]
  exact h

/-- What holds along the run; the record says what it should once the player has answered. -/
structure Ruled (s : System) (moves : List Move) (t : System) : Prop where
  alone : ∀ {op op' stage stage'}, t.stage? op = some stage → t.stage? op' = some stage' →
    op = op'
  autoPause : t.controller.state.presence.autoPause = true
  members : t.controller.state.presence.ownChannel = none →
    t.controller.state.presence.members = []
  handsOff : ∀ {op request}, t.stage? op = some (.begin request) →
    t.controller.HandsOff request
  quiet : (∀ op, t.stage? op = none) → ∀ {r}, t.controller.state.record = some r →
    s.Unheard moves t r.serial r.paused
  current : ∀ {op stage r}, t.stage? op = some stage → stage.isDetaching = false →
    t.controller.state.record = some r → s.Unheard moves t r.serial (stage.due r)
  displaced : ∀ {op stage r}, t.stage? op = some stage → stage.displaced? = some r →
    s.Unheard moves t r.serial r.paused

theorem ruled_start {account : Account} (hauto : account.config.current.autoPauseEnabled = true)
    (self : Nat) (words : RandomWords) :
    let s := start (Controller.start account self words)
    s.Ruled [] s where
  alone := fun h => by simp [start, stage?] at h
  autoPause := hauto
  members := fun _ => rfl
  handsOff := fun h => by simp [start, stage?] at h
  quiet := nofun
  current := fun h => by simp [start, stage?] at h
  displaced := fun h => by simp [start, stage?] at h

theorem Ruled.arrive (h : s.Ruled moves t) (ho : t.Ordered) (run : s.Run automatic moves t)
    {request : Request} (hallowed : t.automatic (.arrive request)) :
    s.Ruled (moves ++ [.arrive request]) (t.arrive request) := by
  obtain ⟨hquiet, hhands⟩ := hallowed
  refine ⟨?_, h.autoPause, h.members, ?_, ?_, ?_, ?_⟩
  · intro op op' stage stage' hstage hstage'
    exact (ho.stage?_arrive_of_quiet hquiet hstage).1.trans
      (ho.stage?_arrive_of_quiet hquiet hstage').1.symm
  · intro op request' hstage
    cases (ho.stage?_arrive_of_quiet hquiet hstage).2
    exact hhands
  · intro hnone
    have hstage := hnone t.fresh
    rw [ho.stage?_arrive, if_pos rfl] at hstage
    cases hstage
  · intro op stage r hstage _ hrecord
    obtain ⟨-, rfl⟩ := ho.stage?_arrive_of_quiet hquiet hstage
    exact (h.quiet hquiet.stage? hrecord).snoc run rfl (by simp [Notices])
  · intro op stage r hstage hdisplaced
    obtain ⟨-, rfl⟩ := ho.stage?_arrive_of_quiet hquiet hstage
    cases hdisplaced

/-! ## What a step leaves to be said -/

/-- Somebody's channel has changed, and the record will say what is decided. -/
theorem Ruled.due_of_presence (h : s.Ruled moves t) (run : s.Run automatic moves t)
    {event : PresenceEvent} {roster : Roster}
    (a : t.Advances u op signal (.begin (.presence event roster)) next told) {r : PlaybackRecord}
    (hrecord : t.controller.state.record = some r) :
    s.Unheard (moves ++ [.advance op signal]) u r.serial (next.due r) := by
  have hpresence : u.controller.state.presence =
      (t.controller.state.presence.apply event roster).1 := a.transition.presence
  obtain ⟨rfl, hdue⟩ := a.transition.due_presence hrecord
  have happlies := t.controller.state.presence.applies_apply event roster
  generalize t.controller.state.presence.apply event roster = q at hpresence hdue happlies
  rw [hdue]
  rcases happlies.decides h.autoPause with ⟨hself, rfl⟩ | ⟨hdecided, hchannel⟩
  · -- The bot's own arrival is left to a move.
    refine (h.current a.before rfl hrecord).snoc run hpresence ?_
    rintro ⟨op', event', roster', hm, hstage, -, -, hother⟩
    cases hm
    cases a.before.symm.trans hstage
    exact hother hself
  · rw [hdecided, Unheard, hpresence]
    cases hown : q.1.ownChannel with
    | some channel => simp
    | none =>
      have hempty := happlies.members_of_none h.members hown
      obtain ⟨hother, hkept⟩ | hsome := hchannel
      · have hnotices : t.Notices (.advance op .go) r.serial := by
          refine ⟨op, event, roster, rfl, a.before, ?_, hkept.symm.trans hown, hother⟩
          simp [PlaybackState.serial?, hrecord]
        simp [hempty, (noticed_snoc_iff run).mpr (.inr hnotices)]
      · rw [hown] at hsome
        cases hsome

/-- A step at which nobody's channel changes keeps the rule. -/
theorem Unheard.step (h : s.Unheard moves t n paused) (run : s.Run automatic moves t)
    (a : t.Advances u op signal stage next told) (hpresence : stage.isPresence = false)
    (hdetaching : stage.isDetaching = false) :
    s.Unheard (moves ++ [.advance op signal]) u n paused := by
  refine h.snoc run ?_ ?_
  · rw [a.transition.presence, Stage.presenceAfter_eq hpresence hdetaching]
  · rintro ⟨op', event, roster, hm, hstage, -⟩
    cases hm
    cases a.before.symm.trans hstage
    cases hpresence

/-- A track that starts rests if nobody listens where the bot is. -/
theorem unheard_silenced (hauto : t.controller.state.presence.autoPause = true) (hn : ¬s.Noticed moves n) :
    s.Unheard moves t n t.controller.state.presence.silenced := by
  simp [Unheard, Presence.silenced, Presence.decision, hauto, hn]

theorem Ruled.due_next (h : s.Ruled moves t) (hs : s.Ordered) (run : s.Run automatic moves t)
    (a : t.Advances u op signal stage next told) (hallowed : t.automatic (.advance op signal))
    (hnext : next.isDetaching = false) {r : PlaybackRecord}
    (hrecord : u.controller.state.record = some r) :
    s.Unheard (moves ++ [.advance op signal]) u r.serial (next.due r) := by
  have hdetaching : stage.isDetaching = false := by
    by_contra hdetaching
    rw [Bool.not_eq_false] at hdetaching
    rcases a.transition.detaches hdetaching with hdetaches | hnone
    · rw [hnext] at hdetaches
      cases hdetaches
    · rw [hnone] at hrecord
      cases hrecord
  by_cases hpresence : stage.isPresence = true
  · obtain ⟨event, roster, rfl⟩ := Stage.eq_of_isPresence hpresence
    refine h.due_of_presence run a ?_
    cases a.pauseMove hallowed with
    | keeps _ hsame =>
      rcases hsame with hsame | hnone
      · exact hsame.symm.trans hrecord
      · rw [hnone] at hrecord
        cases hrecord
    | sets _ hstage => cases hstage
  · rw [Bool.not_eq_true] at hpresence
    have hhands : ∀ request, stage = .begin request → t.controller.HandsOff request := by
      rintro request rfl
      exact h.handsOff a.before
    rw [Stage.due_of_pause?_eq_none (a.transition.pause?_next hhands hpresence)]
    cases a.pauseMove hallowed with
    | keeps hrest hsame =>
      rcases hsame with hsame | hnone
      · have hrule := h.current a.before hdetaching (hsame.symm.trans hrecord)
        have hobeys := hallowed stage a.before
        rw [Stage.due_of_pause?_eq_none (a.transition.pause?_eq_none hobeys hrest)] at hrule
        exact hrule.step run a hpresence hdetaching
      · rw [hnone] at hrecord
        cases hrecord
    | sets answer hstage hset =>
      obtain ⟨old, hold, rfl⟩ := Option.map_eq_some_iff.mp (hset.symm.trans hrecord)
      have hrule := h.current a.before hdetaching hold
      rw [Stage.due, hstage] at hrule
      exact hrule.step run a hpresence hdetaching
    | installs hnew =>
      obtain rfl := Option.some.inj (hnew.symm.trans hrecord)
      refine (unheard_silenced h.autoPause fun hnoticed => ?_).step run a rfl rfl
      have hmem := hnoticed.mem_starts hs run
      exact Nat.lt_irrefl _ (((hs.run run).install a.before rfl).2 _ hmem)
    | fails hd =>
      rw [hd] at hrecord
      exact (h.current a.before rfl hrecord).step run a rfl rfl
    | starts hd =>
      rw [hd] at hrecord
      exact (h.current a.before rfl hrecord).step run a rfl rfl
    | startsAtRest hd =>
      rw [hd] at hrecord
      exact (h.current a.before rfl hrecord).step run a rfl rfl
    | rests hd =>
      rw [hd] at hrecord
      exact (h.current a.before rfl hrecord).step run a rfl rfl
    | rollsBack hback =>
      exact (h.displaced a.before (hback.symm.trans hrecord)).step run a rfl rfl

theorem Ruled.displaced_next (h : s.Ruled moves t) (run : s.Run automatic moves t)
    (a : t.Advances u op signal stage next told) (hallowed : t.automatic (.advance op signal))
    {r : PlaybackRecord} (hdisplaced : next.displaced? = some r) :
    s.Unheard (moves ++ [.advance op signal]) u r.serial r.paused := by
  have hlaunched := Stage.isLaunched_of_displaced? hdisplaced
  cases a.pauseMove hallowed with
  | keeps _ _ _ hnext =>
    rw [hnext] at hlaunched
    cases hlaunched
  | sets => cases hdisplaced
  | installs => exact (h.current a.before rfl hdisplaced).step run a rfl rfl
  | fails => exact (h.displaced a.before hdisplaced).step run a rfl rfl
  | starts => exact (h.displaced a.before hdisplaced).step run a rfl rfl
  | startsAtRest => exact (h.displaced a.before hdisplaced).step run a rfl rfl
  | rests => exact (h.displaced a.before hdisplaced).step run a rfl rfl
  | rollsBack _ hnext =>
    rw [hnext] at hlaunched
    cases hlaunched

theorem Ruled.advance (h : s.Ruled moves t) (hs : s.Ordered) (run : s.Run automatic moves t)
    (a : t.Advances u op signal stage next told)
    (hallowed : t.automatic (.advance op signal)) :
    s.Ruled (moves ++ [.advance op signal]) u := by
  constructor
  · intro op' op'' stage' stage'' hstage' hstage''
    exact (a.stage?_of_alone h.alone hstage').1.trans
      (a.stage?_of_alone h.alone hstage'').1.symm
  · rw [a.transition.presence, Stage.autoPause_presenceAfter]
    exact h.autoPause
  · intro hnone
    rw [a.transition.presence] at hnone ⊢
    exact Stage.members_presenceAfter h.members hnone
  · intro op' request hstage'
    obtain ⟨rfl, rfl⟩ := a.stage?_of_alone h.alone hstage'
    rw [a.transition.request_eq]
    exact ⟨nofun, nofun⟩
  · intro hquiet r hrecord
    have hfinished : ∃ answer, next = .finished answer := by
      by_contra hnot
      have hself := a.stage?_self fun answer heq => hnot ⟨answer, heq⟩
      rw [hquiet op] at hself
      cases hself
    obtain ⟨answer, rfl⟩ := hfinished
    exact h.due_next hs run a hallowed rfl hrecord
  · intro op' stage' r hstage' hdetaching hrecord
    obtain ⟨rfl, rfl⟩ := a.stage?_of_alone h.alone hstage'
    exact h.due_next hs run a hallowed hdetaching hrecord
  · intro op' stage' r hstage' hdisplaced
    obtain ⟨rfl, rfl⟩ := a.stage?_of_alone h.alone hstage'
    exact h.displaced_next run a hallowed hdisplaced

theorem Ruled.run (h : s.Ruled [] s) (hs : s.Ordered) (run : s.Run automatic moves t) :
    s.Ruled moves t := by
  induction run with
  | nil => exact h
  | @snoc moves t u m run hallowed hmove ih =>
    cases m with
    | arrive request =>
      obtain rfl : t.arrive request = u := by simpa [move?] using hmove
      exact ih.arrive (hs.run run) run hallowed
    | advance op signal =>
      obtain ⟨stage, next, told, a⟩ := advances_of_advance? hmove
      exact ih.advance hs run a hallowed

/-! ## The exact rule -/

/-- With automatic pause, and nobody pausing or resuming by hand, the current track rests exactly
if the bot is in a channel where nobody listens, or knows of no channel and has noticed somebody
else since the track is current. -/
theorem rests_iff_unheard (account : Account)
    (hauto : account.config.current.autoPauseEnabled = true) (self : Nat) (words : RandomWords)
    (run : (start (Controller.start account self words)).Run automatic moves t)
    (hquiet : t.Quiet) {r : PlaybackRecord} (hrecord : t.controller.state.record = some r) :
    r.paused = true ↔
      t.controller.state.presence.ownChannel.isSome = true ∧
          t.controller.state.presence.members = [] ∨
        t.controller.state.presence.ownChannel = none ∧
          (start (Controller.start account self words)).Noticed moves r.serial := by
  have hruled := (ruled_start hauto self words).run (ordered_start account self words) run
  exact hruled.quiet hquiet.stage? hrecord

/-- A test for what is automatic, passed by no request to play. -/
def isAutomatic (s : System) : Move → Bool
  | .arrive request => s.inFlight.isEmpty && request != .togglePause && request != .play
  | .advance op signal => s.isObeying (.advance op signal)

theorem automatic_of_isAutomatic (v : System) (m : Move) (h : v.isAutomatic m = true) :
    v.automatic m := by
  cases m with
  | arrive request =>
    simp only [isAutomatic, Bool.and_eq_true, List.isEmpty_iff, bne_iff_ne] at h
    exact ⟨h.1.1, h.1.2, fun hplay => absurd hplay h.2⟩
  | advance op signal => exact obeying_of_isObeying v (.advance op signal) h

/-- A track plays before the bot knows its channel; somebody enters another channel, and the track
rests. -/
theorem rests_iff_unheard_of_stranger :
    let moves : List Move := .arrive (.enqueue (.direct "x")) :: goes 0 6 ++
      .advance 0 (.played (.ok ())) :: goes 0 3 ++ .arrive (.presence (.entered 10 5) []) ::
      goes 1 1 ++ [.advance 1 (.played (.ok ()))]
    let t := blank.after moves
    blank.Run automatic moves t ∧ t.Quiet ∧
      t.controller.state.record =
        some ⟨{ Track.direct "x" with inPlaylist := true }, "x", true, 0, 1⟩ ∧
      t.controller.state.presence.ownChannel = none ∧ blank.Noticed moves 1 := by
  intro moves t
  have hrun : blank.Run automatic moves t :=
    run_after_of_passes automatic_of_isAutomatic (by decide +kernel)
  have hquiet : t.Quiet := show t.inFlight = [] by decide +kernel
  have hrecord : t.controller.state.record =
      some ⟨{ Track.direct "x" with inPlaylist := true }, "x", true, 0, 1⟩ := by decide +kernel
  have hown : t.controller.state.presence.ownChannel = none := by decide +kernel
  have hiff := rests_iff_unheard ⟨default, ⟨[], .standard⟩, .empty⟩ (by decide +kernel) 0 [] hrun
    hquiet hrecord
  rcases hiff.mp rfl with ⟨hsome, -⟩ | ⟨-, hnoticed⟩
  · rw [hown] at hsome
    cases hsome
  · exact ⟨hrun, hquiet, hrecord, hown, hnoticed⟩

end System

end Jukebox
