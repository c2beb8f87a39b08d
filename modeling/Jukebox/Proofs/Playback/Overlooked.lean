import Jukebox.Proofs.Playback.Seeking
import Jukebox.Proofs.Playback.Marker

/-!
# What a request to play overlooks

A request to play looks for a current track in one critical section, and opens its cascade in
another.  Nobody stops here, and no end of a track is reported, so a record that was committed
stays until another takes its place: from a moment on at which there is none, there is one exactly
if somebody has committed a start (`System.vacant_iff_of_run`).

The look sees no start that is open, nor one that is let in afterwards.  So a request that found
nothing playing displaces a record exactly if somebody else was let in before its cascade was
opened, and has committed a start since the look (`System.play_displaces_iff`).
-/

namespace Jukebox

/-- The request ends no track. -/
def Request.leavesRecord : Request → Bool
  | .stop _ | .ended _ | .failed _ _ | .detach => false
  | _ => true

namespace Stage

/-- Where such a request can lead. -/
def leavesRecord : Stage → Bool
  | .begin request => request.leavesRecord
  | .cancelPending | .stopAdmission _ | .retire _ | .halting _ => false
  | stage => stage.cascade?.all (·.ended.isNone)

/-- The next step ends a start that went well. -/
def commits : Stage → Bool
  | .commit _ _ _ => true
  | _ => false

theorem leavesRecord_of_cascade? {stage : Stage} {cascade : Cascade}
    (h : stage.cascade? = some cascade) :
    stage.leavesRecord = cascade.ended.isNone := by
  cases stage <;> first | rfl | (cases h; rfl) | cases h

end Stage

namespace Controller

variable {c d : Controller} {op : Nat} {stage next : Stage} {signal : Signal}
  {told : List PlaybackEvent}

/-! ## What a step does to a committed record -/

theorem begin_leavesRecord {request : Request} (h : request.leavesRecord = true)
    (e : c.begin op request = (d, next, told)) : next.leavesRecord = true := by
  have hidle : ∀ c : Controller, c.beginIfIdle.2.leavesRecord = true := by
    intro c
    unfold beginIfIdle
    split <;> rfl
  obtain rfl : (c.begin op request).2.1 = next := by rw [e]
  cases request with
  | play =>
    simp only [begin]
    split
    · split <;> rfl
    · rfl
  | enqueue track => exact hidle _
  | addPlaylist tracks => exact hidle _
  | togglePause =>
    simp only [begin]
    split <;> rfl
  | presence event roster =>
    simp only [begin]
    split
    · split <;> rfl
    · rfl
  | exchange i j =>
    simp only [begin]
    split <;> rfl
  | remove index =>
    simp only [begin]
    split <;> rfl
  | _ => first | rfl | cases h

theorem Transition.leavesRecord (h : Transition c op stage signal d next)
    (hstage : stage.leavesRecord = true) : next.leavesRecord = true := by
  have hsame : ∀ {stage next : Stage} {cascade : Cascade}, stage.cascade? = some cascade →
      next.cascade? = some cascade → stage.leavesRecord = true → next.leavesRecord = true := by
    intro stage next cascade hcascade hnext hstage
    rw [Stage.leavesRecord_of_cascade? hcascade] at hstage
    rw [Stage.leavesRecord_of_cascade? hnext, hstage]
  cases h with
  | begin e => exact begin_leavesRecord hstage e
  | measure hcascade =>
    subst hcascade
    exact hsame rfl (unburdened_nextAttempt c _).cascade? hstage
  | retry => exact hsame rfl (unburdened_nextAttempt c _).cascade? hstage
  | close => rfl
  | rollBack => exact hsame rfl (unburdened_failed _ _).cascade? hstage
  | commit => exact hsame rfl (unburdened_succeeded _).cascade? hstage
  | refuse => exact hsame rfl (cascade?_superseded _) hstage
  | cancel hinterrupt =>
    cases hinterrupt <;> exact hsame rfl (cascade?_superseded _) hstage
  | resolveFails => exact hsame rfl (unburdened_failed _ _).cascade? hstage
  | pauseSet => rfl
  | pauseKept => rfl
  | _ => first | exact hsame rfl rfl hstage | cases hstage

/-- Who is inside the gate with a cascade was there with it before the step, or has come in with
the newest token. -/
theorem Transition.cascade_of_isInside (h : Transition c op stage signal d next)
    (hinside : next.isInside = true) {cascade : Cascade} (hcascade : next.cascade? = some cascade) :
    stage.isInside = true ∧ stage.cascade? = some cascade ∨ cascade.token = c.token := by
  cases h with
  | begin _ begins => rw [begins.isInside] at hinside; cases hinside
  | measure => rw [(unburdened_nextAttempt c _).isInside] at hinside; cases hinside
  | retry => rw [(unburdened_nextAttempt c _).isInside] at hinside; cases hinside
  | rollBack => rw [(unburdened_failed _ _).isInside] at hinside; cases hinside
  | commit => rw [(unburdened_succeeded _).isInside] at hinside; cases hinside
  | enter _ htoken =>
    cases hcascade
    exact .inr htoken
  | refuse => rw [isInside_superseded] at hinside; cases hinside
  | cancel hinterrupt => rw [isInside_superseded] at hinside; cases hinside
  | resolveFails => rw [(unburdened_failed _ _).isInside] at hinside; cases hinside
  | _ =>
    first
    | exact .inl ⟨rfl, hcascade⟩
    | exact absurd hinside Bool.false_ne_true
    | cases hcascade

theorem Transition.settles_of_commits (h : Transition c op stage signal d next)
    (hcommits : stage.commits = true) : next.isSettling = true := by
  cases h with
  | commit =>
    unfold succeeded
    split <;> rfl
  | cancel hinterrupt => cases hinterrupt <;> cases hcommits
  | pauseSet hkeeps => cases hkeeps <;> cases hcommits
  | pauseKept hkeeps => cases hkeeps <;> cases hcommits
  | _ => cases hcommits

theorem Transition.finishes_of_keepsLock (h : Transition c op stage signal d next)
    (hkeeps : KeepsLock stage) : ∃ answer, next = .finished answer := by
  cases h with
  | pauseSet _ _ answer => exact ⟨answer, rfl⟩
  | pauseKept _ answer => exact ⟨answer, rfl⟩
  | cancel hinterrupt => cases hinterrupt <;> cases hkeeps
  | _ => cases hkeeps

/-- What a step does to a committed record and to an open start, if it ends no track. -/
inductive Covering (c d : Controller) (stage next : Stage) : Prop
  | keeps (hrecord : d.state.record.isSome = c.state.record.isSome)
      (hlaunched : next.isLaunched = stage.isLaunched)
      (hdisplaced : next.displaced? = stage.displaced?) (hstage : stage.commits = false)
  | installs (hstage : stage.isInside = true) (hrecord : d.state.record.isSome = true)
      (hlaunched : next.isLaunched = true) (hdisplaced : next.displaced? = c.state.record)
      (hstart : stage.isLaunched = false)
  | rollsBack (hstage : stage.isLaunched = true) (hrecord : d.state.record = stage.displaced?)
      (hlaunched : next.isLaunched = false) (hcommits : stage.commits = false)
  | commits (hstage : stage.commits = true) (hrecord : d.state.record = c.state.record)
      (hlaunched : next.isLaunched = false)

theorem covering_of_outside (hrecord : d.state.record.isSome = c.state.record.isSome)
    (hstage : stage.isInside = false) (hnext : next.isInside = false) :
    Covering c d stage next := by
  refine .keeps hrecord ?_ ?_ ?_
  · rw [Stage.isLaunched_eq_false hstage, Stage.isLaunched_eq_false hnext]
  · rw [Stage.displaced?_eq_none hstage, Stage.displaced?_eq_none hnext]
  · cases stage <;> first | rfl | cases hstage

theorem covering_closeCascade {cascade : Cascade} (hended : cascade.ended.isNone = true)
    (hstage : stage.isInside = false) (hnext : next.isInside = false) :
    Covering c (c.update (·.closeCascade cascade)) stage next := by
  have hrecord : (c.state.closeCascade cascade).record = c.state.record :=
    closeCascade_record_of_ended (Option.isNone_iff_eq_none.mp hended)
  exact covering_of_outside (congrArg Option.isSome hrecord) hstage hnext

theorem Transition.covering (h : Transition c op stage signal d next)
    (hstage : stage.leavesRecord = true) : Covering c d stage next := by
  cases h with
  | begin e begins =>
    exact covering_of_outside (congrArg Option.isSome begins.frame.2.2) rfl begins.isInside
  | measure => exact covering_of_outside rfl rfl (unburdened_nextAttempt c _).isInside
  | retry => exact covering_of_outside rfl rfl (unburdened_nextAttempt c _).isInside
  | take h => exact covering_of_outside (congrArg Option.isSome (takeNext?_frame h).1) rfl rfl
  | takeNothing => exact covering_closeCascade hstage rfl rfl
  | giveBack => exact covering_of_outside (congrArg Option.isSome (giveBack_frame _ _ _).1) rfl rfl
  | settle => exact covering_closeCascade hstage rfl rfl
  | close => exact covering_closeCascade hstage rfl rfl
  | install => exact .installs rfl rfl rfl rfl rfl
  | rollBack =>
    exact .rollsBack rfl rfl (Stage.isLaunched_eq_false (unburdened_failed _ _).isInside) rfl
  | commit =>
    exact .commits rfl rfl (Stage.isLaunched_eq_false (unburdened_succeeded _).isInside)
  | refuse => exact covering_of_outside rfl rfl (isInside_superseded _)
  | cancel hinterrupt =>
    cases hinterrupt <;> exact covering_of_outside rfl rfl (isInside_superseded _)
  | resolveFails => exact covering_of_outside rfl rfl (unburdened_failed _ _).isInside
  | pauseSet hkeeps paused =>
    have hsame : (c.state.setPaused paused).record.isSome = c.state.record.isSome :=
      Option.isSome_map
    cases hkeeps <;> exact covering_of_outside hsame rfl rfl
  | pauseKept hkeeps => cases hkeeps <;> exact covering_of_outside rfl rfl rfl
  | _ => first | exact .keeps rfl rfl rfl rfl | cases hstage

end Controller

namespace System

variable {allowed : System → Move → Prop} {s t u v w x y z : System} {op op' p : Nat}
  {signal : Signal} {stage stage' next : Stage} {told : List PlaybackEvent}
  {moves first rest before after : List Move} {m : Move}

/-- Nobody stops, and no end of a track is reported. -/
def leavesRecord (_ : System) : Move → Prop
  | .arrive request => request.leavesRecord = true
  | .advance _ _ => True

/-- No committed record is there: none is current, or the current one belongs to a start that is
open and has displaced none. -/
def Vacant (s : System) : Prop :=
  s.controller.state.record = none ∨
    ∃ op stage, s.stage? op = some stage ∧ stage.isLaunched = true ∧ stage.displaced? = none

/-- On the way the operation commits a start. -/
def CommitsOn (s : System) (op : Nat) (moves : List Move) : Prop :=
  ∃ first rest stage, moves = first ++ .advance op .go :: rest ∧
    (s.after first).stage? op = some stage ∧ stage.commits = true

/-! ## Whether a committed record is there -/

/-- What holds on a run on which no track is ended. -/
structure Lasting (s : System) : Prop where
  ordered : s.Ordered
  stage : ∀ {op stage}, s.stage? op = some stage → stage.leavesRecord = true
  /-- While a start is open, a record is current. -/
  launched : ∀ {op stage}, s.stage? op = some stage → stage.isLaunched = true →
    s.controller.state.record.isSome = true

theorem lasting_start (account : Account) (self : Nat) (words : RandomWords) :
    (start (Controller.start account self words)).Lasting where
  ordered := ordered_start account self words
  stage := fun h => by simp [start, stage?] at h
  launched := fun h => by simp [start, stage?] at h

theorem Lasting.arrive (h : s.Lasting) {request : Request}
    (hleaves : request.leavesRecord = true) : (s.arrive request).Lasting where
  ordered := h.ordered.arrive request
  stage := by
    intro op stage hstage
    rcases h.ordered.stage?_arrive_cases hstage with ⟨-, rfl⟩ | ⟨-, hold⟩
    · exact hleaves
    · exact h.stage hold
  launched := by
    intro op stage hstage hlaunched
    rcases h.ordered.stage?_arrive_cases hstage with ⟨-, rfl⟩ | ⟨-, hold⟩
    · cases hlaunched
    · exact h.launched hold hlaunched

theorem Advances.covering (a : s.Advances t op signal stage next told) (h : s.Lasting) :
    Controller.Covering s.controller t.controller stage next :=
  a.transition.covering (h.stage a.before)

theorem Lasting.launched_advance (h : s.Lasting) (a : s.Advances t op signal stage next told)
    (hstage' : t.stage? op' = some stage') (hlaunched : stage'.isLaunched = true) :
    t.controller.state.record.isSome = true := by
  rcases a.stage?_cases hstage' with ⟨rfl, rfl⟩ | ⟨hne, hold⟩
  · cases a.covering h with
    | keeps hrecord hsame =>
      rw [hrecord]
      exact h.launched a.before (hsame ▸ hlaunched)
    | installs _ hrecord => exact hrecord
    | rollsBack _ _ hover => rw [hover] at hlaunched; cases hlaunched
    | commits _ _ hover => rw [hover] at hlaunched; cases hlaunched
  · have hout := h.ordered.not_isInside a.before hne hold (Stage.isInside_of_isLaunched hlaunched)
    cases a.covering h with
    | keeps hrecord =>
      rw [hrecord]
      exact h.launched hold hlaunched
    | installs hinside => rw [hout] at hinside; cases hinside
    | rollsBack hopen => rw [Stage.isLaunched_eq_false hout] at hopen; cases hopen
    | commits _ hrecord =>
      rw [hrecord]
      exact h.launched hold hlaunched

theorem Lasting.advance (h : s.Lasting) (a : s.Advances t op signal stage next told) :
    t.Lasting where
  ordered := h.ordered.advance a
  stage := by
    intro op' stage' hstage'
    rcases a.stage?_cases hstage' with ⟨rfl, rfl⟩ | ⟨-, hold⟩
    · exact a.transition.leavesRecord (h.stage a.before)
    · exact h.stage hold
  launched := h.launched_advance a

theorem Lasting.run (h : s.Lasting) (run : s.Run leavesRecord moves t) : t.Lasting := by
  refine h.ordered.invariant h run ?_ ?_
  · intro v request _ h hleaves
    exact h.arrive hleaves
  · intro v w op signal stage next told _ h _ a
    exact h.advance a

/-- Whether a committed record is there is seen from whoever is inside the gate. -/
theorem Ordered.vacant_iff_of_isInside (ho : s.Ordered) (hstage : s.stage? op = some stage)
    (hinside : stage.isInside = true) :
    s.Vacant ↔ s.controller.state.record = none ∨
      stage.isLaunched = true ∧ stage.displaced? = none := by
  refine or_congr Iff.rfl ⟨?_, fun h => ⟨op, stage, hstage, h⟩⟩
  rintro ⟨op', stage', hstage', hlaunched, hdisplaced⟩
  obtain rfl := ho.alone hstage hinside hstage' (Stage.isInside_of_isLaunched hlaunched)
  obtain rfl := Option.some.inj (hstage.symm.trans hstage')
  exact ⟨hlaunched, hdisplaced⟩

/-- Once an operation has left the gate, nobody has a start open. -/
theorem Advances.vacant_iff_of_leaves (a : s.Advances t op signal stage next told)
    (ho : s.Ordered) (hinside : stage.isInside = true) (hover : next.isLaunched = false) :
    t.Vacant ↔ t.controller.state.record = none := by
  refine or_iff_left ?_
  rintro ⟨op', stage', hstage', hlaunched, -⟩
  rcases a.stage?_cases hstage' with ⟨rfl, rfl⟩ | ⟨hne, hold⟩
  · rw [hover] at hlaunched
    cases hlaunched
  · have hout := ho.not_isInside a.before hne hold (Stage.isInside_of_isLaunched hlaunched)
    rw [hinside] at hout
    cases hout

theorem Ordered.vacant_arrive (ho : s.Ordered) (request : Request) :
    (s.arrive request).Vacant ↔ s.Vacant := by
  refine or_congr Iff.rfl ⟨?_, ?_⟩
  · rintro ⟨op, stage, hstage, hlaunched, hdisplaced⟩
    rcases ho.stage?_arrive_cases hstage with ⟨-, rfl⟩ | ⟨-, hold⟩
    · cases hlaunched
    · exact ⟨op, stage, hold, hlaunched, hdisplaced⟩
  · rintro ⟨op, stage, hstage, hopen⟩
    exact ⟨op, stage, ho.stage?_arrive_of_some hstage request, hopen⟩

/-- A step that changes no open start and leaves the record leaves a committed one, too. -/
theorem Advances.vacant_iff_of_keeps (a : s.Advances t op signal stage next told)
    (hrecord : t.controller.state.record.isSome = s.controller.state.record.isSome)
    (hlaunched : next.isLaunched = stage.isLaunched)
    (hdisplaced : next.displaced? = stage.displaced?) : t.Vacant ↔ s.Vacant := by
  refine or_congr ?_ ⟨?_, ?_⟩
  · rw [← Option.not_isSome_iff_eq_none, hrecord, Option.not_isSome_iff_eq_none]
  · rintro ⟨op', stage', hstage', hopen, hnone⟩
    rcases a.stage?_cases hstage' with ⟨rfl, rfl⟩ | ⟨-, hold⟩
    · exact ⟨_, stage, a.before, hlaunched ▸ hopen, hdisplaced ▸ hnone⟩
    · exact ⟨op', stage', hold, hopen, hnone⟩
  · rintro ⟨op', stage', hstage', hopen, hnone⟩
    by_cases hop : op' = op
    · subst hop
      obtain rfl := Option.some.inj (hstage'.symm.trans a.before)
      refine ⟨_, next, a.stage?_self ?_, hlaunched ▸ hopen, hdisplaced ▸ hnone⟩
      rintro answer rfl
      rw [← hlaunched] at hopen
      cases hopen
    · exact ⟨op', stage', (a.stage?_of_ne hop).trans hstage', hopen, hnone⟩

/-- A committed record stays, and comes with a commit only. -/
theorem Lasting.vacant_advance (h : s.Lasting) (a : s.Advances t op signal stage next told) :
    t.Vacant ↔ s.Vacant ∧ stage.commits = false := by
  cases a.covering h with
  | keeps hrecord hlaunched hdisplaced hcommits =>
    rw [a.vacant_iff_of_keeps hrecord hlaunched hdisplaced, and_iff_left hcommits]
  | installs hinside hrecord hlaunched hdisplaced hstart =>
    have hnext := a.stage?_self (by rintro answer rfl; cases hlaunched)
    have hcommits : stage.commits = false := by
      cases stage <;> first | rfl | cases hstart
    rw [and_iff_left hcommits, h.ordered.vacant_iff_of_isInside a.before hinside,
      (h.ordered.advance a).vacant_iff_of_isInside hnext (Stage.isInside_of_isLaunched hlaunched)]
    simp [Option.ne_none_iff_isSome.mpr hrecord, hlaunched, hdisplaced, hstart]
  | rollsBack hopen hrecord hover hcommits =>
    have hinside := Stage.isInside_of_isLaunched hopen
    have hsome := Option.ne_none_iff_isSome.mpr (h.launched a.before hopen)
    rw [and_iff_left hcommits, a.vacant_iff_of_leaves h.ordered hinside hover,
      h.ordered.vacant_iff_of_isInside a.before hinside]
    simp [hrecord, hsome, hopen]
  | commits hcommits hrecord hover =>
    have hopen : stage.isLaunched = true := by
      cases stage <;> first | rfl | cases hcommits
    have hsome := Option.ne_none_iff_isSome.mpr (h.launched a.before hopen)
    rw [a.vacant_iff_of_leaves h.ordered (Stage.isInside_of_isLaunched hopen) hover]
    simp [hrecord, hsome, hcommits]

theorem commitsOn_concat : s.CommitsOn op (moves ++ [m]) ↔ s.CommitsOn op moves ∨
    m = .advance op .go ∧
      ∃ stage, (s.after moves).stage? op = some stage ∧ stage.commits = true := by
  constructor
  · rintro ⟨first, rest, stage, hmoves, hcommits⟩
    rcases rest.eq_nil_or_concat with rfl | ⟨rest, last, rfl⟩
    · obtain ⟨rfl, hlast⟩ := List.append_inj' hmoves rfl
      exact .inr ⟨List.singleton_inj.mp hlast, stage, hcommits⟩
    · rw [List.concat_eq_append, ← List.cons_append, ← List.append_assoc] at hmoves
      obtain ⟨rfl, -⟩ := List.append_inj' hmoves rfl
      exact .inl ⟨first, rest, stage, rfl, hcommits⟩
  · rintro (⟨first, rest, stage, rfl, hcommits⟩ | ⟨rfl, stage, hcommits⟩)
    · exact ⟨first, rest ++ [m], stage, by simp, hcommits⟩
    · exact ⟨moves, [], stage, rfl, hcommits⟩

/-- From a moment on at which no committed record is there, one is there exactly if somebody has
committed a start. -/
theorem vacant_iff_of_run (h : s.Lasting) (hvacant : s.Vacant)
    (run : s.Run leavesRecord moves t) : t.Vacant ↔ ∀ op, ¬s.CommitsOn op moves := by
  induction run with
  | nil =>
    refine iff_of_true hvacant ?_
    rintro op ⟨first, rest, stage, hmoves, -⟩
    simp at hmoves
  | @snoc moves u v m run _ hmove ih =>
    have hu := h.run run
    simp only [commitsOn_concat, run.after_eq, not_or, forall_and, ← ih]
    cases m with
    | arrive request =>
      obtain rfl : u.arrive request = v := by simpa [move?] using hmove
      rw [hu.ordered.vacant_arrive, and_iff_left]
      rintro op ⟨⟨⟩, -⟩
    | advance op signal =>
      obtain ⟨stage, next, told, a⟩ := advances_of_advance? hmove
      rw [hu.vacant_advance a]
      refine and_congr_right' ⟨?_, ?_⟩
      · rintro hkeeps op' ⟨hm, stage', hstage', hcommits⟩
        cases hm
        obtain rfl := Option.some.inj (a.before.symm.trans hstage')
        rw [hkeeps] at hcommits
        cases hcommits
      · intro hnobody
        by_contra hcommits
        rw [Bool.not_eq_false] at hcommits
        have hneed : stage.need = .lock := by
          cases stage <;> first | rfl | cases hcommits
        exact hnobody op ⟨by rw [a.signal_of_lock hneed], stage, a.before, hcommits⟩

/-! ## When a cascade was opened -/

/-- The operation has found no current track, and is about to open a cascade. -/
def AboutToOpen (s : System) (op : Nat) : Prop := s.stage? op = some (.begin .playNext)

/-- Whoever is inside the gate and was not before has come in with a token that is not older than
the one of that time. -/
theorem token_le_of_isInside (ho : s.Ordered) (run : s.Run allowed moves t)
    (hout : ∀ stage, s.stage? op = some stage → stage.isInside = false)
    (hstage : t.stage? op = some stage) (hinside : stage.isInside = true) {cascade : Cascade}
    (hcascade : stage.cascade? = some cascade) : s.controller.token ≤ cascade.token := by
  induction run generalizing stage with
  | nil =>
    rw [hout stage hstage] at hinside
    cases hinside
  | @snoc moves u v m run _ hmove ih =>
    cases m with
    | arrive request =>
      obtain rfl : u.arrive request = v := by simpa [move?] using hmove
      exact ih ((ho.run run).stage?_of_cascade? hstage hcascade) hinside hcascade
    | advance op' signal =>
      obtain ⟨old, next, told, a⟩ := advances_of_advance? hmove
      rcases a.stage?_cases hstage with ⟨rfl, rfl⟩ | ⟨-, hold⟩
      · rcases a.transition.cascade_of_isInside hinside hcascade with ⟨hbefore, hsame⟩ | htoken
        · exact ih a.before hbefore hsame
        · rw [htoken]
          exact ho.token_le_of_run run
      · exact ih hold hinside hcascade

/-- The operation was about to open its cascade when it did so. -/
theorem AboutToOpen.cases_run (hopen : v.AboutToOpen p) (ho : v.Ordered)
    (run : v.Run allowed moves x) : x.AboutToOpen p ∨
      ∃ first rest y, moves = first ++ .advance p .go :: rest ∧ v.Run allowed first y ∧
        y.AboutToOpen p ∧ y.Run allowed (.advance p .go :: rest) x := by
  induction run with
  | nil => exact .inl hopen
  | @snoc moves x x' m run hallowed hmove ih =>
    rcases ih with hstill | ⟨first, rest, y, rfl, hfirst, hy, hrest⟩
    · cases m with
      | arrive request =>
        obtain rfl : x.arrive request = x' := by simpa [move?] using hmove
        exact .inl ((ho.run run).stage?_arrive_of_some hstill request)
      | advance op signal =>
        obtain ⟨stage, next, told, a⟩ := advances_of_advance? hmove
        by_cases hop : p = op
        · subst hop
          obtain rfl := Option.some.inj (a.before.symm.trans hstill)
          obtain rfl := a.signal_of_lock rfl
          exact .inr ⟨moves, [], x, rfl, run, hstill, .single hallowed hmove⟩
        · exact .inl ((a.stage?_of_ne hop).trans hstill)
    · exact .inr ⟨first, rest ++ [m], y, by simp, hfirst, hy, hrest.snoc hallowed hmove⟩

theorem AboutToOpen.opens (hopen : s.AboutToOpen p) (hmove : s.move? (.advance p .go) = some t) :
    ∃ stage cascade, t.stage? p = some stage ∧ stage.cascade? = some cascade ∧
      cascade.token = t.controller.token := by
  obtain ⟨stage, next, told, a⟩ := advances_of_advance? hmove
  obtain rfl := Option.some.inj (a.before.symm.trans hopen)
  have hstep := a.step
  simp only [Controller.step?, Stage.need, Option.ite_none_right_eq_some, Option.some.injEq,
    Controller.locked, Controller.begin, Controller.beginCascade, Prod.mk.injEq] at hstep
  obtain ⟨-, hd, hnext, -⟩ := hstep
  have hcascade := congrArg Stage.cascade? hnext.symm
  refine ⟨next, _, a.stage?_self ?_, hcascade, ?_⟩
  · rintro answer rfl
    cases hcascade
  · rw [← hd]
    rfl

/-- An operation keeps the cascade that it has opened. -/
theorem Ordered.cascade_of_run (ho : s.Ordered) (run : s.Run allowed moves t)
    (hstage : s.stage? op = some stage) {cascade : Cascade}
    (hcascade : stage.cascade? = some cascade) (hstage' : t.stage? op = some stage') :
    stage'.cascade? = some cascade := by
  refine ho.stage_of_run (P := fun stage => stage.cascade? = some cascade) (ho.lt_fresh hstage)
    ?_ ?_ run hstage'
  · intro other hother
    obtain rfl := Option.some.inj (hstage.symm.trans hother)
    exact hcascade
  · intro c d stage next signal hcascade step
    cases step.numbering with
    | keeps _ _ hnext => exact .inl (hnext.trans hcascade)
    | opens _ _ _ _ hnone => cases hnone.symm.trans hcascade
    | cancels _ _ hnone => cases hnone.symm.trans hcascade
    | closes _ _ hover => exact .inr ⟨_, hover⟩

/-! ## What a request to play displaces -/

/-- Before the operation `p` opened its cascade, another one was let in, and commits its
start. -/
def Overlooks (s : System) (p op : Nat) (moves : List Move) : Prop :=
  ∃ first rest stage, moves = first ++ rest ∧ (s.after first).AboutToOpen p ∧
    (s.after first).stage? op = some stage ∧ stage.isInside = true ∧
    (s.after first).CommitsOn op rest

/-- The operation has said that a track is playing already, or asks the player to go on with the
one that rests and keeps the lock meanwhile. -/
def LetsPlay (s : System) (op : Nat) (record : PlaybackRecord) : Prop :=
  if record.paused then s.stage? op = some .resuming ∧ s.controller.lockedBy = some op
  else .answered op (.outcome (.ok .alreadyPlaying)) ∈ s.log ∧ s.stage? op = none

theorem CommitsOn.of_append (h : t.CommitsOn op rest) (run : s.Run allowed first t)
    (hrest : t.Run allowed rest u) : s.CommitsOn op (first ++ rest) := by
  obtain ⟨before, after, stage, rfl, hstage, hcommits⟩ := h
  obtain ⟨w, hbefore, -⟩ := hrest.split
  rw [hbefore.after_eq] at hstage
  refine ⟨first ++ before, after, stage, (List.append_assoc _ _ _).symm, ?_, hcommits⟩
  rw [(run.append hbefore).after_eq]
  exact hstage

/-- Who was inside the gate before another operation came in with the newest token had been let in
before that one opened its cascade. -/
theorem isInside_of_opens (ho : y.Ordered) (hm : y.Marked) (hopen : y.AboutToOpen p)
    (run : y.Run allowed (.advance p .go :: first) x) (hrest : x.Run allowed rest w)
    (hne : op ≠ p) (hstage : x.stage? op = some stage) (hinside : stage.isInside = true)
    {cascade : Cascade} (hcascade : stage.cascade? = some cascade)
    (hstage' : w.stage? p = some stage') (hinside' : stage'.isInside = true) :
    ∃ old, y.stage? op = some old ∧ old.isInside = true := by
  obtain ⟨z, hone, hfirst⟩ := run.split_cons
  obtain ⟨-, hz⟩ := hone.of_single
  have hzo := ho.move hz
  have hxo := hzo.run hfirst
  obtain ⟨start, mine, hstart, hmine, htoken⟩ := hopen.opens hz
  obtain ⟨here, hhere⟩ := hxo.exists_stage_of_run
    (Nat.lt_of_lt_of_le (hzo.lt_fresh hstart) (hzo.fresh_le_of_run hfirst)) hrest hstage'
  have hkept := hzo.cascade_of_run hfirst hstart hmine hhere
  have hout : here.isInside = false := hxo.not_isInside hhere hne hstage hinside
  by_contra hnone
  -- Now both have come in with the token that was the newest when the cascade was opened.
  have htheirs : z.controller.token ≤ cascade.token := by
    refine token_le_of_isInside hzo hfirst ?_ hstage hinside hcascade
    intro old hold
    by_contra hold'
    obtain ⟨_, _, _, a⟩ := advances_of_advance? hz
    exact hnone ⟨old, (a.stage?_of_ne hne).symm.trans hold, by simpa using hold'⟩
  have hmine' : x.controller.token ≤ mine.token := by
    refine token_le_of_isInside hxo hrest ?_ hstage' hinside'
      (hxo.cascade_of_run hrest hhere hkept hstage')
    intro old hold
    obtain rfl := Option.some.inj (hhere.symm.trans hold)
    exact hout
  exact hne ((hm.run ho run).alone_of_token hxo hstage hcascade
    (hmine'.trans (htoken.trans_le htheirs)) hhere hkept hmine')

/-- Who commits a start before another operation comes inside the gate was overlooked by it. -/
theorem overlooks_of_commits (ho : v.Ordered) (hm : v.Marked) (hopen : v.AboutToOpen p)
    (run : v.Run allowed moves w) (hstage' : w.stage? p = some stage')
    (hinside' : stage'.isInside = true) (hne : op ≠ p) (hcommits : v.CommitsOn op moves) :
    v.Overlooks p op moves := by
  obtain ⟨first, rest, stage, rfl, hstage, hcommit⟩ := hcommits
  obtain ⟨x, hfirst, hrest⟩ := run.split
  rw [hfirst.after_eq] at hstage
  obtain ⟨hinside, cascade, hcascade⟩ :
      stage.isInside = true ∧ ∃ cascade, stage.cascade? = some cascade := by
    cases stage with
    | commit l r displaced => exact ⟨rfl, _, rfl⟩
    | _ => cases hcommit
  have hcommits : x.CommitsOn op (.advance op .go :: rest) :=
    ⟨[], rest, stage, rfl, hstage, hcommit⟩
  rcases hopen.cases_run ho hfirst with hstill | ⟨before, after, y, rfl, hy, hyopen, hyx⟩
  · refine ⟨first, _, stage, rfl, ?_⟩
    rw [hfirst.after_eq]
    exact ⟨hstill, hstage, hinside, hcommits⟩
  · obtain ⟨old, hold, hold'⟩ := isInside_of_opens (ho.run hy) (hm.run ho hy) hyopen hyx hrest
      hne hstage hinside hcascade hstage' hinside'
    refine ⟨before, .advance p .go :: after ++ .advance op .go :: rest, old, by simp, ?_⟩
    rw [hy.after_eq]
    exact ⟨hyopen, hold, hold', hcommits.of_append hyx hrest⟩

/-- Whoever has committed a start on the way starts nothing any more. -/
theorem CommitsOn.ne (h : s.CommitsOn op moves) (ho : s.Ordered) (run : s.Run allowed moves t)
    (hstage : t.stage? p = some stage) (hinside : stage.isInside = true) : op ≠ p := by
  rintro rfl
  obtain ⟨first, rest, before, rfl, hbefore, hcommits⟩ := h
  obtain ⟨u, hfirst, hmore⟩ := run.split
  rw [hfirst.after_eq] at hbefore
  obtain ⟨v, hone, hrest⟩ := hmore.split_cons
  obtain ⟨old, next, told, a⟩ := advances_of_advance? hone.of_single.2
  obtain rfl := Option.some.inj (a.before.symm.trans hbefore)
  have hnext := a.transition.settles_of_commits hcommits
  have hu := ho.run hfirst
  have hstart : v.stage? op = some next := by
    refine a.stage?_self ?_
    rintro answer rfl
    cases hnext
  have hsettling : stage.isSettling = true :=
    (hu.advance a).stage_of_run (P := fun stage => stage.isSettling = true)
      ((hu.advance a).lt_fresh hstart)
      (fun other hother => Option.some.inj (hstart.symm.trans hother) ▸ hnext)
      (fun h step => step.settles h) hrest hstage
  rw [Stage.isInside_of_isSettling hsettling] at hinside
  cases hinside

/-- What a request to play comes to when it looks at the record. -/
theorem Advances.look (a : s.Advances t p .go (.begin .play) next told)
    (hmove : s.move? (.advance p .go) = some t) :
    (s.controller.state.record = none ∧ t.controller.state.record = none ∧ t.AboutToOpen p) ∨
      ∃ record, s.controller.state.record = some record ∧ t.LetsPlay p record := by
  have hstep := a.step
  cases hrecord : s.controller.state.record with
  | none =>
    simp only [Controller.step?, Stage.need, Option.ite_none_right_eq_some, Option.some.injEq,
      Controller.locked, Controller.begin, hrecord, Prod.mk.injEq] at hstep
    obtain ⟨-, hd, rfl, -⟩ := hstep
    refine .inl ⟨rfl, hd ▸ hrecord, a.stage?_self ?_⟩
    rintro answer ⟨⟩
  | some record =>
    refine .inr ⟨record, rfl, ?_⟩
    unfold LetsPlay
    simp only [Controller.step?, Stage.need, Option.ite_none_right_eq_some, Option.some.injEq,
      Controller.locked, Controller.begin, hrecord] at hstep
    by_cases hpaused : record.paused = true
    · simp only [hpaused, if_true, Controller.askToPause, Prod.mk.injEq] at hstep ⊢
      obtain ⟨-, hd, rfl, -⟩ := hstep
      refine ⟨a.stage?_self ?_, hd ▸ rfl⟩
      rintro answer ⟨⟩
    · simp only [hpaused, Bool.false_eq_true, if_false, Controller.answer, Prod.mk.injEq]
        at hstep ⊢
      obtain ⟨-, hd, rfl, -⟩ := hstep
      exact ⟨mem_log_of_finished hmove a.before a.step, a.stage?_of_finished rfl⟩

theorem LetsPlay.keepsLock {record : PlaybackRecord} (h : s.LetsPlay p record)
    (hstage : s.stage? p = some stage) : Controller.KeepsLock stage := by
  unfold LetsPlay at h
  split at h
  · obtain rfl := Option.some.inj (hstage.symm.trans h.1)
    exact .resuming
  · cases hstage.symm.trans h.2

/-- A request to play that lets a track play starts none. -/
theorem LetsPlay.isInside_eq_false {record : PlaybackRecord} (h : s.LetsPlay p record)
    (ho : s.Ordered) (hop : p < s.fresh) (run : s.Run allowed moves t)
    (hstage : t.stage? p = some stage) : stage.isInside = false := by
  have hkeeps : Controller.KeepsLock stage :=
    ho.stage_of_run hop (fun _ => h.keepsLock) (fun h step => .inr (step.finishes_of_keepsLock h))
      run hstage
  cases hkeeps <;> rfl

/-- A request to play lets the current track play if there is one.  If it found none, then at each
start that it makes it displaces a record exactly if it has overlooked a start. -/
theorem play_displaces_iff (account : Account) (self : Nat) (words : RandomWords)
    (run : (start (Controller.start account self words)).Run leavesRecord before u)
    (hplay : u.stage? p = some (.begin .play)) (hlook : u.move? (.advance p .go) = some v) :
    (∀ record, u.controller.state.record = some record → v.LetsPlay p record) ∧
      ∀ {after w l r serial}, v.Run leavesRecord after w →
        w.stage? p = some (.install l r serial) →
          u.controller.state.record = none ∧
            (w.controller.state.record.isSome = true ↔ ∃ op, op ≠ p ∧ v.Overlooks p op after) := by
  have hu := (lasting_start account self words).run run
  have hm := (marked_start account self words).run (ordered_start account self words) run
  obtain ⟨stage, next, told, a⟩ := advances_of_advance? hlook
  obtain rfl := Option.some.inj (a.before.symm.trans hplay)
  have hv := hu.advance a
  rcases a.look hlook with ⟨hnone, hvnone, hopen⟩ | ⟨record, hrecord, hplays⟩
  · refine ⟨fun record hrecord => (nomatch hnone.symm.trans hrecord), ?_⟩
    intro after w l r serial hafter hstage
    have hvacant : w.Vacant ↔ w.controller.state.record = none := by
      rw [(hv.run hafter).ordered.vacant_iff_of_isInside hstage rfl]
      simp [Stage.isLaunched]
    refine ⟨hnone, ?_⟩
    rw [← Option.ne_none_iff_isSome, Ne, ← hvacant,
      vacant_iff_of_run hv (.inl hvnone) hafter, not_forall]
    constructor
    · rintro ⟨op, hcommits⟩
      rw [not_not] at hcommits
      have hne := hcommits.ne hv.ordered hafter hstage rfl
      exact ⟨op, hne, overlooks_of_commits hv.ordered (hm.advance hu.ordered a) hopen hafter
        hstage rfl hne hcommits⟩
    · rintro ⟨op, -, first, rest, -, rfl, -, -, -, hcommits⟩
      obtain ⟨x, hfirst, hrest⟩ := hafter.split
      rw [hfirst.after_eq] at hcommits
      exact ⟨op, not_not.mpr (hcommits.of_append hfirst hrest)⟩
  · refine ⟨fun other hother => Option.some.inj (hrecord.symm.trans hother) ▸ hplays, ?_⟩
    intro after w l r serial hafter hstage
    have hlt : p < v.fresh := a.fresh ▸ hu.ordered.lt_fresh hplay
    cases hplays.isInside_eq_false hv.ordered hlt hafter hstage

/-- Whether the move ends no track. -/
def isLasting (_ : System) : Move → Bool
  | .arrive request => request.leavesRecord
  | .advance _ _ => true

theorem leavesRecord_of_isLasting (v : System) (m : Move) (h : v.isLasting m = true) :
    leavesRecord v m := by
  cases m with
  | arrive request => exact h
  | advance op signal => trivial

/-- A request to play finds no current track.  Before it opens its cascade somebody else's track
starts, and another track is added; this one then takes the place of the one that is playing. -/
theorem play_displaces_iff_of_playTrack :
    let u := blank.after [.arrive .play]
    let v := u.after (goes 0 1)
    let gap : List Move := .arrive (.playTrack (.direct "y") none) :: goes 1 4 ++
      .advance 1 (.played (.ok ())) :: goes 1 2 ++ .arrive (.enqueue (.direct "b")) ::
      goes 2 1 ++ goes 0 5
    let w := v.after gap
    let mine : Launch := ⟨{ Track.direct "b" with inPlaylist := true }, none, 0,
      .search ⟨⟨2, 2, none⟩, 1, 0, ⟨3, 0, 0⟩⟩ 0⟩
    blank.Run leavesRecord [.arrive .play] u ∧ v.Run leavesRecord gap w ∧
      w.stage? 0 = some (.install mine ⟨mine.track, "b"⟩ 2) ∧
      w.controller.state.record = some ⟨.direct "y", "y", false, 0, 1⟩ ∧
      ∃ op, op ≠ 0 ∧ v.Overlooks 0 op gap := by
  intro u v gap w mine
  have hrun : blank.Run leavesRecord [.arrive .play] u :=
    run_after_of_passes leavesRecord_of_isLasting (by decide +kernel)
  have hgap : v.Run leavesRecord gap w :=
    run_after_of_passes leavesRecord_of_isLasting (by decide +kernel)
  have hplay : u.stage? 0 = some (.begin .play) := by decide +kernel
  have hlook : u.move? (.advance 0 .go) = some v := move?_eq_some_after (by decide +kernel)
  have hinstall : w.stage? 0 = some (.install mine ⟨mine.track, "b"⟩ 2) := by decide +kernel
  have hrecord : w.controller.state.record = some ⟨.direct "y", "y", false, 0, 1⟩ := by
    decide +kernel
  obtain ⟨-, hstarts⟩ := play_displaces_iff ⟨default, ⟨[], .standard⟩, .empty⟩ 0 [] hrun hplay hlook
  obtain ⟨-, hiff⟩ := hstarts hgap hinstall
  refine ⟨hrun, hgap, hinstall, hrecord, hiff.mp ?_⟩
  rw [hrecord]
  rfl

end System

end Jukebox
