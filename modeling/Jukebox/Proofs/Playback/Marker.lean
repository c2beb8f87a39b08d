import Jukebox.Proofs.Playback.Precedence
import Jukebox.Proofs.Playback.Seeking
import Jukebox.Proofs.Playback.Silence

/-!
# What the mark of the open cascade says

The state remembers the number of the cascade that is looking for a track, if one is.  The mark is
set when a cascade is opened, and is removed by that cascade when it has found the queue empty,
by its last steps, and by a stop.  Here it is shown to be right at every moment: whoever is marked
is in flight and is the newest, whoever may start a track is marked, and where nothing runs nobody
is.  So an idle controller is one on which no track is current, and what is added to its queue
starts by itself.
-/

namespace Jukebox

/-- The request adds tracks to the queue. -/
def Request.adds : Request → Bool
  | .enqueue _ | .addPlaylist _ => true
  | _ => false

namespace Controller

variable {c d : Controller} {op : Nat} {stage next : Stage} {signal : Signal}

/-! ## What a step does to the mark -/

theorem cascade_closeCascade (s : PlaybackState) (cascade : Cascade) :
    (s.closeCascade cascade).cascade =
      if s.cascade = some cascade.id then none else s.cascade := by
  obtain ⟨record, queue, -, -, heq⟩ := s.closeCascade_eq cascade
  rw [heq]

/-- What a step does to the mark, to the token and to the cascade of its operation. -/
inductive Marking (c d : Controller) (stage next : Stage) : Prop
  | keeps (hmark : d.state.cascade = c.state.cascade) (htoken : d.token = c.token)
      (hcount : d.state.cascadeCount = c.state.cascadeCount)
      (hnext : next.cascade? = stage.cascade?) (hstage : stage.isSettling = false)
  | opens (hmark : d.state.cascade = some d.state.cascadeCount)
      (htoken : d.token = c.token + 1)
      (hnext : ∃ ended, next.cascade? = some ⟨d.state.cascadeCount, d.token, ended⟩)
  | cancels (hmark : d.state.cascade = none) (htoken : d.token = c.token + 1)
      (hnext : next.cascade? = none)
  /-- The operation closes its cascade, and starts nothing any more. -/
  | closes {cascade : Cascade} (hd : d = c.update (·.closeCascade cascade))
      (hstage : stage.cascade? = some cascade)
      (hnext : next.cascade? = some cascade ∧ next.isSettling = true ∨
        ∃ answer, next = .finished answer)

theorem Begins.marking {request : Request} (h : Begins c op d next) :
    Marking c d (.begin request) next := by
  cases h with
  | @opens d ended next frame hended hnext =>
    refine .opens rfl ?_ ⟨ended, ?_⟩
    · exact congrArg (· + 1) frame.token
    · obtain rfl | rfl | ⟨_, _, rfl⟩ := hnext <;> rfl
  | cancels => exact .cancels rfl rfl rfl
  | holds frame hnext =>
    obtain rfl | ⟨_, rfl⟩ | ⟨_, rfl⟩ := hnext <;>
      exact .keeps frame.cascade frame.token frame.cascadeCount rfl rfl
  | keeps frame hnext =>
    obtain rfl | rfl | ⟨_, rfl⟩ := hnext <;>
      exact .keeps frame.cascade frame.token frame.cascadeCount rfl rfl

theorem Transition.marking (h : Transition c op stage signal d next) :
    Marking c d stage next := by
  cases h with
  | begin e begins => exact begins.marking
  | measure hcascade =>
    have hnext := (unburdened_nextAttempt c _).cascade?.trans (congrArg some hcascade)
    exact .keeps rfl rfl rfl hnext rfl
  | retry => exact .keeps rfl rfl rfl (unburdened_nextAttempt c _).cascade? rfl
  | take h =>
    obtain ⟨queue, mode, words, rfl⟩ := PlaybackState.takeNext?_eq h
    exact .keeps rfl rfl rfl rfl rfl
  | takeNothing => exact .closes rfl rfl (.inl ⟨rfl, rfl⟩)
  | @giveBack cascade track generation =>
    obtain ⟨queue, heq⟩ := c.state.giveBack_eq track generation
    rw [update, heq]
    exact .keeps rfl rfl rfl rfl rfl
  | settle => exact .closes rfl rfl (.inl ⟨rfl, rfl⟩)
  | close => exact .closes rfl rfl (.inr ⟨_, rfl⟩)
  | rollBack => exact .keeps rfl rfl rfl (unburdened_failed _ _).cascade? rfl
  | commit => exact .keeps rfl rfl rfl (unburdened_succeeded _).cascade? rfl
  | cancelPending => exact .cancels rfl rfl rfl
  | retire =>
    obtain ⟨queue, -, heq⟩ := c.state.retire_eq
    rw [update, heq]
    exact .keeps rfl rfl rfl rfl rfl
  | refuse => exact .keeps rfl rfl rfl (cascade?_superseded _) rfl
  | cancel hstage => cases hstage <;> exact .keeps rfl rfl rfl (cascade?_superseded _) rfl
  | resolveFails => exact .keeps rfl rfl rfl (unburdened_failed _ _).cascade? rfl
  | pauseSet hstage => cases hstage <;> exact .keeps rfl rfl rfl rfl rfl
  | pauseKept hstage => cases hstage <;> exact .keeps rfl rfl rfl rfl rfl
  | _ => exact .keeps rfl rfl rfl rfl rfl

/-- Whoever keeps the lock between two steps waits for the player to rest or to go on. -/
theorem Transition.lock (h : Transition c op stage signal d next) :
    d.lockedBy = c.lockedBy ∧ ¬KeepsLock stage ∨ d.lockedBy = some op ∧ KeepsLock next ∨
      d.lockedBy = none := by
  have hkeeps : d.lockedBy = c.lockedBy → ¬KeepsLock stage →
      d.lockedBy = c.lockedBy ∧ ¬KeepsLock stage ∨ d.lockedBy = some op ∧ KeepsLock next ∨
        d.lockedBy = none :=
    fun hlock hstage => .inl ⟨hlock, hstage⟩
  cases h with
  | begin e begins =>
    cases begins with
    | opens frame => exact hkeeps frame.lockedBy nofun
    | cancels => exact hkeeps rfl nofun
    | holds frame hnext =>
      refine .inr (.inl ⟨rfl, ?_⟩)
      obtain rfl | ⟨paused, rfl⟩ | ⟨paused, rfl⟩ := hnext
      · exact .resuming
      · exact .toggling paused
      · exact .adjusting paused
    | keeps frame => exact hkeeps frame.lockedBy nofun
  | cancel hstage => cases hstage <;> exact hkeeps rfl nofun
  | pauseSet => exact .inr (.inr rfl)
  | pauseKept => exact .inr (.inr rfl)
  | _ => exact hkeeps rfl nofun

/-- On an idle controller a request that adds tracks opens a cascade. -/
theorem begin_of_isIdle {request : Request} (hadds : request.adds = true)
    (hidle : c.state.isIdle = true) (op : Nat) :
    ∃ d, SameFrame c d ∧
      c.begin op request = ((d.openCascade none).1, .measure (d.openCascade none).2, []) := by
  have hopens : ∀ {d}, SameFrame c d → ∃ d', SameFrame c d' ∧
      (d.beginIfIdle.1, d.beginIfIdle.2, ([] : List PlaybackEvent)) =
        ((d'.openCascade none).1, .measure (d'.openCascade none).2, []) := by
    intro d frame
    have hd : d.state.isIdle = true := by
      rw [← hidle, PlaybackState.isIdle, PlaybackState.isIdle, frame.record, frame.cascade]
    refine ⟨d, frame, ?_⟩
    rw [beginIfIdle, if_pos hd]
    rfl
  cases request with
  | enqueue track => exact hopens ⟨rfl, rfl, rfl, rfl, rfl, rfl, rfl⟩
  | addPlaylist tracks => exact hopens ⟨rfl, rfl, rfl, rfl, rfl, rfl, rfl⟩
  | _ => cases hadds

end Controller

namespace System

variable {s t u : System} {op : Nat} {signal : Signal} {stage next : Stage}
  {told : List PlaybackEvent} {moves : List Move} {m : Move}

/-! ## Who is marked -/

/-- What the mark of the open cascade says, and what the lock does. -/
structure Marked (s : System) : Prop where
  apart : s.Apart
  /-- Whoever keeps the lock between two steps waits for the player. -/
  lock : ∀ {op}, s.controller.lockedBy = some op →
    ∃ stage, s.stage? op = some stage ∧ Controller.KeepsLock stage
  /-- The cascade that is marked is in flight, is the newest, and has its token. -/
  opener : ∀ {n}, s.controller.state.cascade = some n → n = s.newest ∧
    ∃ op stage cascade, s.stage? op = some stage ∧ stage.cascade? = some cascade ∧
      cascade.id = n ∧ cascade.token = s.controller.token
  /-- A cascade that has its token is marked until it settles. -/
  named : ∀ {op stage cascade}, s.stage? op = some stage → stage.cascade? = some cascade →
    cascade.token = s.controller.token → stage.isSettling = false →
    s.controller.state.cascade = some cascade.id

theorem marked_start (account : Account) (self : Nat) (words : RandomWords) :
    (start (Controller.start account self words)).Marked where
  apart := fun _ _ _ _ _ _ h => by simp [start, stage?] at h
  lock := nofun
  opener := nofun
  named := fun h => by simp [start, stage?] at h

theorem Marked.arrive (h : s.Marked) (ho : s.Ordered) (request : Request) :
    (s.arrive request).Marked where
  apart := h.apart.arrive ho request
  lock := by
    intro op hlocked
    obtain ⟨stage, hstage, hkeeps⟩ := h.lock hlocked
    exact ⟨stage, ho.stage?_arrive_of_some hstage request, hkeeps⟩
  opener := by
    intro n hmark
    obtain ⟨hn, op, stage, cascade, hstage, hrest⟩ := h.opener hmark
    exact ⟨hn, op, stage, cascade, ho.stage?_arrive_of_some hstage request, hrest⟩
  named := by
    intro op stage cascade hstage hcascade
    exact h.named (ho.stage?_of_cascade? hstage hcascade) hcascade

theorem Marked.lock_advance (h : s.Marked) (a : s.Advances t op signal stage next told)
    {op' : Nat} (hlocked : t.controller.lockedBy = some op') :
    ∃ stage', t.stage? op' = some stage' ∧ Controller.KeepsLock stage' := by
  rcases a.transition.lock with ⟨hsame, hfree⟩ | ⟨hheld, hkeeps⟩ | hnone
  · obtain ⟨stage', hstage', hkeeps⟩ := h.lock (hsame.symm.trans hlocked)
    have hne : op' ≠ op := by
      rintro rfl
      obtain rfl := Option.some.inj (hstage'.symm.trans a.before)
      exact hfree hkeeps
    exact ⟨stage', (a.stage?_of_ne hne).trans hstage', hkeeps⟩
  · obtain rfl := Option.some.inj (hheld.symm.trans hlocked)
    refine ⟨next, a.stage?_self ?_, hkeeps⟩
    rintro answer rfl
    cases hkeeps
  · rw [hnone] at hlocked
    cases hlocked

/-- An operation whose cascade stays with it is still in flight. -/
theorem Advances.stage?_of_cascade? (a : s.Advances t op signal stage next told)
    (hkeeps : next.cascade? = stage.cascade?) {op' : Nat} {stage' : Stage} {cascade : Cascade}
    (hstage' : s.stage? op' = some stage') (hcascade : stage'.cascade? = some cascade) :
    ∃ after, t.stage? op' = some after ∧ after.cascade? = some cascade := by
  by_cases hop : op' = op
  · subst hop
    obtain rfl := Option.some.inj (hstage'.symm.trans a.before)
    have hnext := hkeeps.trans hcascade
    refine ⟨next, a.stage?_self ?_, hnext⟩
    rintro answer rfl
    cases hnext
  · exact ⟨stage', (a.stage?_of_ne hop).trans hstage', hcascade⟩

theorem Marked.opener_advance (h : s.Marked) (a : s.Advances t op signal stage next told)
    {n : Nat} (hmark : t.controller.state.cascade = some n) : n = t.newest ∧
      ∃ op' stage' cascade, t.stage? op' = some stage' ∧ stage'.cascade? = some cascade ∧
        cascade.id = n ∧ cascade.token = t.controller.token := by
  cases a.transition.marking with
  | keeps hsame htoken hcount hnext =>
    obtain ⟨hn, op', stage', cascade, hstage', hcascade, hid, htok⟩ :=
      h.opener (hsame.symm.trans hmark)
    obtain ⟨after, hafter, hcascade⟩ := a.stage?_of_cascade? hnext hstage' hcascade
    exact ⟨hn.trans hcount.symm, op', after, cascade, hafter, hcascade, hid,
      htok.trans htoken.symm⟩
  | opens hnew _ hnext =>
    obtain ⟨ended, hnext⟩ := hnext
    obtain rfl := Option.some.inj (hnew.symm.trans hmark)
    refine ⟨rfl, op, next, _, a.stage?_self ?_, hnext, rfl, rfl⟩
    rintro answer rfl
    cases hnext
  | cancels hnone =>
    rw [hnone] at hmark
    cases hmark
  | @closes cascade hd hstage =>
    rw [hd] at hmark
    have hclosed := (Controller.cascade_closeCascade s.controller.state cascade).symm.trans hmark
    by_cases hopen : s.controller.state.cascade = some cascade.id
    · rw [if_pos hopen] at hclosed
      cases hclosed
    · rw [if_neg hopen] at hclosed
      obtain ⟨hn, op', stage', other, hstage', hother, hid, htok⟩ := h.opener hclosed
      -- The cascade that is closed is not the one that is marked.
      have hne : op' ≠ op := by
        rintro rfl
        obtain rfl := Option.some.inj (hstage'.symm.trans a.before)
        obtain rfl := Option.some.inj (hother.symm.trans hstage)
        exact hopen (hid ▸ hclosed)
      refine ⟨?_, op', stage', other, (a.stage?_of_ne hne).trans hstage', hother, hid, ?_⟩
      · rw [hn, newest, newest, hd]
        exact (Controller.closeCascade_count _ _).symm
      · rw [htok, hd]
        rfl

theorem Marked.named_advance (h : s.Marked) (ho : s.Ordered)
    (a : s.Advances t op signal stage next told) {op' : Nat} {stage' : Stage}
    {cascade : Cascade} (hstage' : t.stage? op' = some stage')
    (hcascade : stage'.cascade? = some cascade)
    (htoken : cascade.token = t.controller.token) (hgoesOn : stage'.isSettling = false) :
    t.controller.state.cascade = some cascade.id := by
  cases a.transition.marking with
  | keeps hsame htok _ hnext hstage =>
    rw [hsame]
    rcases a.stage?_cases hstage' with ⟨rfl, rfl⟩ | ⟨-, hold⟩
    · exact h.named a.before (hnext ▸ hcascade) (htoken.trans htok) hstage
    · exact h.named hold hcascade (htoken.trans htok) hgoesOn
  | opens hnew =>
    rw [hnew, ((ho.advance a).cascade hstage' hcascade).2.2 htoken]
  | cancels _ htok hnext =>
    rcases a.stage?_cases hstage' with ⟨rfl, rfl⟩ | ⟨-, hold⟩
    · rw [hnext] at hcascade
      cases hcascade
    · have hle := (ho.cascade hold hcascade).2.1
      omega
  | @closes closed hd hstage hnext =>
    rcases a.stage?_cases hstage' with ⟨rfl, rfl⟩ | ⟨hne, hold⟩
    · rcases hnext with ⟨-, hsettling⟩ | ⟨answer, rfl⟩
      · rw [hgoesOn] at hsettling
        cases hsettling
      · cases hcascade
    · rw [hd] at htoken ⊢
      have hmark := h.named hold hcascade htoken hgoesOn
      have hother : cascade.id ≠ closed.id :=
        fun heq => hne (h.apart hold a.before hcascade hstage heq)
      refine (Controller.cascade_closeCascade s.controller.state closed).trans ?_
      rw [if_neg, hmark]
      rw [hmark]
      exact fun heq => hother (Option.some.inj heq)

theorem Marked.advance (h : s.Marked) (ho : s.Ordered)
    (a : s.Advances t op signal stage next told) : t.Marked where
  apart := h.apart.advance ho a
  lock := h.lock_advance a
  opener := h.opener_advance a
  named := h.named_advance ho a

theorem Marked.run {allowed : System → Move → Prop} (h : s.Marked) (ho : s.Ordered)
    (run : s.Run allowed moves t) : t.Marked := by
  refine ho.invariant h run ?_ ?_
  · intro v request ho h _
    exact h.arrive ho request
  · intro v w op signal stage next told ho h _ a
    exact h.advance ho a

/-- Only one operation has a cascade with the newest token. -/
theorem Marked.alone_of_token (h : s.Marked) (ho : s.Ordered) {op' : Nat} {stage' : Stage}
    {cascade cascade' : Cascade} (hstage : s.stage? op = some stage)
    (hcascade : stage.cascade? = some cascade) (hle : s.controller.token ≤ cascade.token)
    (hstage' : s.stage? op' = some stage') (hcascade' : stage'.cascade? = some cascade')
    (hle' : s.controller.token ≤ cascade'.token) : op = op' := by
  obtain ⟨-, hlast, hid⟩ := ho.cascade hstage hcascade
  obtain ⟨-, hlast', hid'⟩ := ho.cascade hstage' hcascade'
  refine h.apart hstage hstage' hcascade hcascade' ?_
  rw [hid (Nat.le_antisymm hlast hle), hid' (Nat.le_antisymm hlast' hle')]

/-! ## Who has opened a cascade, and who may start a track -/

/-- On the run a step of the operation has opened the cascade with this number. -/
def OpenedBy (s : System) (moves : List Move) (op n : Nat) : Prop :=
  ∃ before signal after u v, moves = before ++ .advance op signal :: after ∧
    s.Run anyMove before u ∧ u.move? (.advance op signal) = some v ∧ n = u.newest + 1 ∧
    v.newest = n

/-- The operation belongs to a cascade whose token was not taken away. -/
def Entitled (s : System) (op : Nat) (cascade : Cascade) : Prop :=
  ∃ stage, s.stage? op = some stage ∧ stage.cascade? = some cascade ∧
    s.controller.isCancelled cascade.token = false

/-- The operation may still call the player to start a track. -/
def MayStart (s : System) (op : Nat) : Prop :=
  ∃ moves t signal u serial cascade, s.Run anyMove moves t ∧
    t.StartsTrack (.advance op signal) u serial cascade

theorem OpenedBy.snoc {n : Nat} (h : s.OpenedBy moves op n) (m : Move) :
    s.OpenedBy (moves ++ [m]) op n := by
  obtain ⟨before, signal, after, u, v, rfl, hrest⟩ := h
  exact ⟨before, signal, after ++ [m], u, v, by simp, hrest⟩

/-- An operation that belongs to a cascade has opened it. -/
theorem openedBy_of_cascade? (ho : s.Ordered) (hquiet : s.Quiet) (run : s.Run anyMove moves t)
    {cascade : Cascade} (hstage : t.stage? op = some stage)
    (hcascade : stage.cascade? = some cascade) : s.OpenedBy moves op cascade.id := by
  induction run generalizing op stage with
  | nil =>
    rw [hquiet.stage? op] at hstage
    cases hstage
  | @snoc moves u v m run _ hmove ih =>
    cases m with
    | arrive request =>
      obtain rfl : u.arrive request = v := by simpa [move?] using hmove
      have hold := (ho.run run).stage?_of_cascade? hstage hcascade
      exact (ih hold hcascade).snoc _
    | advance op' signal =>
      obtain ⟨old, next, told, a⟩ := advances_of_advance? hmove
      rcases a.cascade_cases hstage hcascade with ⟨old, hold, hcascade⟩ | ⟨rfl, hnew, hid, -⟩
      · exact (ih hold hcascade).snoc _
      · exact ⟨moves, signal, [], u, v, rfl, run, hmove, hid.trans hnew, hid.symm⟩

/-- Whoever settles starts no track any more. -/
theorem not_mayStart_of_isSettling (ho : s.Ordered) (hstage : s.stage? op = some stage)
    (hsettling : stage.isSettling = true) : ¬s.MayStart op := by
  rintro ⟨moves, t, signal, u, serial, cascade, run, hstarts⟩
  obtain ⟨old, next, told, a⟩ := advances_of_advance? hstarts.move
  have hsettling' : old.isSettling = true :=
    ho.stage_of_run (P := fun stage => stage.isSettling = true) (ho.lt_fresh hstage)
      (fun other hother => Option.some.inj (hstage.symm.trans hother) ▸ hsettling)
      (fun h step => step.settles h) run a.before
  have hout := Stage.isInside_of_isSettling hsettling'
  have hcall := hstarts.call
  rw [a.starts_eq hout] at hcall
  simp at hcall

theorem Marked.entitled (h : s.Marked) {n : Nat} (hmark : s.controller.state.cascade = some n) :
    ∃ op cascade, s.Entitled op cascade ∧ cascade.id = n := by
  obtain ⟨-, op, stage, cascade, hstage, hcascade, hid, htoken⟩ := h.opener hmark
  refine ⟨op, cascade, ⟨stage, hstage, hcascade, ?_⟩, hid⟩
  simp [Controller.isCancelled, htoken]

/-- An operation that may start a track and has its token is the one that is marked. -/
theorem Marked.cascade_of_mayStart (h : s.Marked) (ho : s.Ordered) {cascade : Cascade}
    (hentitled : s.Entitled op cascade) (hstart : s.MayStart op) :
    s.controller.state.cascade = some cascade.id := by
  obtain ⟨stage, hstage, hcascade, htoken⟩ := hentitled
  apply h.named hstage hcascade
  · simpa [Controller.isCancelled] using htoken
  · by_contra hsettling
    rw [Bool.not_eq_false] at hsettling
    exact not_mayStart_of_isSettling ho hstage hsettling hstart

theorem Marked.cascade_of_quiet (h : s.Marked) (hquiet : s.Quiet) :
    s.controller.state.cascade = none := by
  cases hmark : s.controller.state.cascade with
  | none => rfl
  | some n =>
    obtain ⟨-, op, stage, cascade, hstage, -⟩ := h.opener hmark
    rw [hquiet.stage? op] at hstage
    cases hstage

theorem Marked.lockedBy_of_quiet (h : s.Marked) (hquiet : s.Quiet) :
    s.controller.lockedBy = none := by
  cases hlocked : s.controller.lockedBy with
  | none => rfl
  | some op =>
    obtain ⟨stage, hstage, -⟩ := h.lock hlocked
    rw [hquiet.stage? op] at hstage
    cases hstage

/-- A request that adds tracks, and comes in where nothing runs and nothing plays, opens a
cascade with its first step. -/
theorem Marked.opens_of_idle (h : s.Marked) (ho : s.Ordered) (hquiet : s.Quiet)
    (hidle : s.controller.state.isIdle = true) {request : Request}
    (hadds : request.adds = true) :
    ∃ u, (s.arrive request).move? (.advance s.fresh .go) = some u ∧
      u.newest = s.newest + 1 ∧ u.controller.state.cascade = some u.newest ∧
      u.stage? s.fresh = some (.measure ⟨u.newest, u.controller.token, none⟩) := by
  obtain ⟨d, frame, hbegin⟩ := Controller.begin_of_isIdle hadds hidle s.fresh
  have hstage : (s.arrive request).stage? s.fresh = some (.begin request) := by
    rw [ho.stage?_arrive, if_pos rfl]
  have hstep : s.controller.step? s.fresh (.begin request) .go =
      some ((d.openCascade none).1, .measure (d.openCascade none).2, []) := by
    simp [Controller.step?, Stage.need, h.lockedBy_of_quiet hquiet, Controller.locked, hbegin]
  obtain ⟨u, hmove⟩ : ∃ u, (s.arrive request).move? (.advance s.fresh .go) = some u := by
    simp [move?, advance?, hstage, hstep]
  obtain ⟨stage, next, told, a⟩ := advances_of_advance? hmove
  obtain rfl := Option.some.inj (hstage.symm.trans a.before)
  obtain ⟨hcontroller, rfl, -⟩ :
      (d.openCascade none).1 = u.controller ∧ .measure (d.openCascade none).2 = next ∧ _ := by
    simpa using hstep.symm.trans a.step
  refine ⟨u, hmove, ?_, ?_, ?_⟩
  · rw [newest, ← hcontroller]
    exact congrArg (· + 1) frame.cascadeCount
  · rw [newest, ← hcontroller]
    rfl
  · rw [a.stage?_self (by simp), newest, ← hcontroller]
    rfl

/-! ## The mark is exact -/

/-- On every run of any requests with any answers: whoever is marked is the newest, is in flight
and has its token; an operation that may start a track and has its token is marked, so there is
at most one; and where nothing runs nobody is marked, so that a controller is idle exactly if no
track is current, and then a request that adds tracks opens a cascade with its first step. -/
theorem mark_exact (account : Account) (self : Nat) (words : RandomWords)
    (run : (start (Controller.start account self words)).Run anyMove moves t) :
    (∀ n, t.controller.state.cascade = some n → n = t.newest ∧ ∃ op cascade,
      t.Entitled op cascade ∧ cascade.id = n ∧
        (start (Controller.start account self words)).OpenedBy moves op n) ∧
    (∀ op cascade, t.Entitled op cascade → t.MayStart op →
      t.controller.state.cascade = some cascade.id ∧
        ∀ op' cascade', t.Entitled op' cascade' → t.MayStart op' → op' = op) ∧
    (t.Quiet → t.controller.state.cascade = none ∧
      (t.controller.state.isIdle = true ↔ t.controller.state.record = none) ∧
      ∀ request : Request, request.adds = true → t.controller.state.isIdle = true →
        ∃ u, (t.arrive request).move? (.advance t.fresh .go) = some u ∧
          u.newest = t.newest + 1 ∧ u.controller.state.cascade = some u.newest ∧
          u.stage? t.fresh = some (.measure ⟨u.newest, u.controller.token, none⟩)) := by
  have hs := ordered_start account self words
  have ho := hs.run run
  have h := (marked_start account self words).run hs run
  refine ⟨?_, ?_, ?_⟩
  · intro n hmark
    obtain ⟨op, cascade, hentitled, rfl⟩ := h.entitled hmark
    obtain ⟨stage, hstage, hcascade, -⟩ := id hentitled
    exact ⟨(h.opener hmark).1, op, cascade, hentitled, rfl,
      openedBy_of_cascade? hs rfl run hstage hcascade⟩
  · intro op cascade hentitled hstart
    have hmark := h.cascade_of_mayStart ho hentitled hstart
    refine ⟨hmark, ?_⟩
    intro op' cascade' hentitled' hstart'
    have hmark' := h.cascade_of_mayStart ho hentitled' hstart'
    obtain ⟨stage, hstage, hcascade, -⟩ := hentitled
    obtain ⟨stage', hstage', hcascade', -⟩ := hentitled'
    exact h.apart hstage' hstage hcascade' hcascade (Option.some.inj (hmark'.symm.trans hmark))
  · intro hquiet
    have hmark := h.cascade_of_quiet hquiet
    refine ⟨hmark, by simp [PlaybackState.isIdle, hmark], ?_⟩
    intro request hadds hidle
    exact h.opens_of_idle ho hquiet hidle hadds

/-- A track is added, and while its cascade looks for it the next one is asked for; and where
that was asked for with an empty queue, a track is added afterwards. -/
theorem mark_exact_of_rivals :
    let added : Move := .arrive (.enqueue (.direct "x"))
    let moves := added :: goes 0 2 ++ .arrive .playNext :: goes 1 1
    let s := blank.after moves
    let v := blank.after (.arrive .playNext :: goes 0 5)
    blank.Run anyMove moves s ∧
      (s.controller.state.cascade = some 2 ∧ 2 = s.newest ∧ ∃ op cascade,
        s.Entitled op cascade ∧ cascade.id = 2 ∧ blank.OpenedBy moves op 2) ∧
      (s.Entitled 1 ⟨2, 2, none⟩ ∧ s.MayStart 1 ∧
        s.controller.state.cascade = some (⟨2, 2, none⟩ : Cascade).id) ∧
      v.Quiet ∧ v.controller.state.isIdle = true ∧ v.controller.state.cascade = none ∧
        ∃ u, (v.arrive (.enqueue (.direct "x"))).move? (.advance v.fresh .go) = some u ∧
          u.newest = v.newest + 1 ∧ u.controller.state.cascade = some u.newest ∧
          u.stage? v.fresh = some (.measure ⟨u.newest, u.controller.token, none⟩) := by
  intro added moves s v
  have hrun : blank.Run anyMove moves s := run_after (by decide +kernel)
  have hrun' : blank.Run anyMove _ v := run_after (by decide +kernel)
  obtain ⟨hopener, hnamed, -⟩ := mark_exact ⟨default, ⟨[], .standard⟩, .empty⟩ 0 [] hrun
  obtain ⟨-, -, hquiet⟩ := mark_exact ⟨default, ⟨[], .standard⟩, .empty⟩ 0 [] hrun'
  have hmark : s.controller.state.cascade = some 2 := by decide +kernel
  have hentitled : s.Entitled 1 ⟨2, 2, none⟩ :=
    ⟨.measure ⟨2, 2, none⟩, by decide +kernel, rfl, by decide +kernel⟩
  have hstarts : (s.after (goes 1 4)).StartsTrack (.advance 1 .go)
      ((s.after (goes 1 4)).after [.advance 1 .go]) 1 ⟨2, 2, none⟩ :=
    startsTrack_after (by decide +kernel) (by decide +kernel) (by decide +kernel)
  have hmay : s.MayStart 1 :=
    ⟨goes 1 4, _, .go, _, 1, ⟨2, 2, none⟩, run_after (by decide +kernel), hstarts⟩
  have hover : v.Quiet := show v.inFlight = [] by decide +kernel
  have hidle : v.controller.state.isIdle = true := by decide +kernel
  obtain ⟨hnone, -, hopens⟩ := hquiet hover
  exact ⟨hrun, ⟨hmark, hopener 2 hmark⟩,
    ⟨hentitled, hmay, (hnamed 1 ⟨2, 2, none⟩ hentitled hmay).1⟩, hover, hidle, hnone,
    hopens (.enqueue (.direct "x")) rfl hidle⟩

end System

end Jukebox
