import Jukebox.Proofs.Playback.Order

/-!
# What becomes of the player's reports

The player reports the end of a track, or that it broke off, under the serial of the track.
Such a report opens a cascade that closes only once the track is no longer the current one, or
it is dropped because another track is the current one.

There is one way for a reported track to be left as the current one: while another start is
open its record is displaced, the report is dealt with in that time, and then the start fails
and brings the record back.  `System.current_reported_iff` says that there is no other.
-/

namespace Jukebox

/-- The serial of the track whose end, or whose failure, is reported. -/
def Request.report? : Request → Option Nat
  | .ended serial => some serial
  | .failed serial _ => some serial
  | _ => none

namespace Controller

variable {c d : Controller} {op : Nat} {stage next : Stage} {signal : Signal}

/-- A report opens a cascade for the end of the track, unless the track is not the current
one. -/
theorem signalled_cases (c : Controller) (serial : Nat) (told : Track → List PlaybackEvent) :
    (∃ cascade, (c.signalled serial told).2.1 = .measure cascade ∧
        cascade.ended = some serial) ∨
      c.state.serial? ≠ some serial ∧ (c.signalled serial told).1 = c ∧
        (c.signalled serial told).2.1 = .finished (.outcome (.ok .superseded)) := by
  unfold signalled
  cases hrecord : c.state.record with
  | none => exact .inr ⟨by simp [PlaybackState.serial?, hrecord], rfl, rfl⟩
  | some record =>
    by_cases hserial : record.serial = serial
    · simp only [hserial, if_true]
      exact .inl ⟨_, rfl, rfl⟩
    · simp only [hserial, if_false]
      exact .inr ⟨by simpa [PlaybackState.serial?, hrecord] using hserial, rfl, rfl⟩

theorem begin_eq_signalled {request : Request} {n : Nat} (hreport : request.report? = some n) :
    ∃ told, ∀ (c : Controller) (op : Nat), c.begin op request = c.signalled n told := by
  cases request with
  | ended serial =>
    obtain rfl : serial = n := Option.some.inj hreport
    exact ⟨fun _ => [], fun c op => rfl⟩
  | failed serial reason =>
    obtain rfl : serial = n := Option.some.inj hreport
    exact ⟨fun track =>
      [.say ("❌ Falló la reproducción de " ++ track.fullName ++ ", saltando")], fun c op => rfl⟩
  | _ => cases hreport

theorem Transition.reports {request : Request} {n : Nat}
    (h : Transition c op (.begin request) signal d next) (hreport : request.report? = some n) :
    (∃ cascade, next.cascade? = some cascade ∧ cascade.ended = some n) ∨
      c.state.serial? ≠ some n ∧ d = c ∧ ∃ answer, next = .finished answer := by
  obtain ⟨told, hbegin⟩ := begin_eq_signalled hreport
  cases h with
  | begin e =>
    have hcases := c.signalled_cases n told
    rw [← hbegin c op, e] at hcases
    rcases hcases with ⟨cascade, hnext, hended⟩ | ⟨hserial, hd, hnext⟩
    · obtain rfl : next = .measure cascade := hnext
      exact .inl ⟨cascade, rfl, hended⟩
    · exact .inr ⟨hserial, hd, _, hnext⟩
  | cancel hstage => cases hstage
  | pauseSet hstage => cases hstage
  | pauseKept hstage => cases hstage

end Controller

namespace System

variable {s t : System} {op report n : Nat} {signal : Signal} {stage next : Stage}
  {told : List PlaybackEvent} {moves : List Move}

/-- A report under the serial `n` is being dealt with. -/
def Handles (s : System) (report n : Nat) : Prop :=
  ∃ stage, s.stage? report = some stage ∧
    ((∃ request, stage = .begin request ∧ request.report? = some n) ∨
      ∃ cascade, stage.cascade? = some cascade ∧ cascade.ended = some n)

/-- Some start keeps the record with the serial `n`, and may bring it back. -/
def Displaces (s : System) (op n : Nat) : Prop :=
  ∃ stage r, s.stage? op = some stage ∧ stage.displaced? = some r ∧ r.serial = n

/-- The track with the serial `n` is not the current one, and no start may bring it back. -/
def Gone (s : System) (n : Nat) : Prop :=
  s.controller.state.serial? ≠ some n ∧ ∀ op, ¬s.Displaces op n

/-- A start that has failed brings the record with the serial `n` back. -/
def BringsBack (s : System) (op n : Nat) : Prop :=
  ∃ l r e, s.stage? op = some (.rollBack l (some r) e) ∧ r.serial = n

/-- A report under the serial `n` has come in on the run, after the track was started. -/
def Reported (s : System) (moves : List Move) (t : System) (n : Nat) : Prop :=
  ∃ before request after u, moves = before ++ .arrive request :: after ∧
    s.Run anyMove before u ∧ n ∈ u.starts ∧ request.report? = some n ∧
    (u.arrive request).Run anyMove after t

/-- The record with the serial `n` was brought back on the run, when the operation that had to
deal with a report was over. -/
def BroughtBackSince (s : System) (moves : List Move) (t : System) (report n : Nat) : Prop :=
  ∃ before op signal after u v, moves = before ++ .advance op signal :: after ∧
    s.Run anyMove before u ∧ u.stage? report = none ∧ u.BringsBack op n ∧
    u.move? (.advance op signal) = some v ∧ v.Run anyMove after t

/-- A report under the serial `n` has come in on the run after the track was started, it was
dealt with, and then a start that failed brought the record back. -/
def ReportedInVain (s : System) (moves : List Move) (t : System) (n : Nat) : Prop :=
  ∃ before request after u, moves = before ++ .arrive request :: after ∧
    s.Run anyMove before u ∧ n ∈ u.starts ∧ request.report? = some n ∧
    (u.arrive request).BroughtBackSince after t u.fresh n

/-! ## One move -/

theorem Ordered.not_current_of_displaces (h : s.Ordered) (hd : s.Displaces op n) :
    s.controller.state.serial? ≠ some n := by
  obtain ⟨stage, r, hstage, hdisplaced, rfl⟩ := hd
  intro hcurrent
  have heq := h.launched hstage (Stage.isLaunched_of_displaced? hdisplaced) hcurrent
  exact absurd heq (Nat.ne_of_lt (h.displaced hstage hdisplaced).2)

theorem gone_or_displaces (hserial : s.controller.state.serial? ≠ some n) :
    s.Gone n ∨ ∃ op, s.Displaces op n := by
  by_cases hdisplaces : ∃ op, s.Displaces op n
  · exact .inr hdisplaces
  · exact .inl ⟨hserial, fun op hop => hdisplaces ⟨op, hop⟩⟩

/-- What is gone stays gone: each start makes a record of its own. -/
theorem Gone.advance (h : s.Gone n) (ho : s.Ordered) (hn : n ∈ s.starts)
    (a : s.Advances t op signal stage next told) : t.Gone n := by
  obtain ⟨hserial, hdisplaces⟩ := h
  have hunused : ¬Controller.InUse s.controller stage n := by
    rintro (hcurrent | ⟨r, hr, hrn⟩ | hstart)
    · exact hserial hcurrent
    · exact hdisplaces op ⟨stage, r, a.before, hr, hrn⟩
    · exact Nat.lt_irrefl n ((ho.install a.before hstart).2 n hn)
  have hunused' : ¬Controller.InUse t.controller next n := by
    intro huse
    rcases a.transition.inUse huse with huse | ⟨heq, -⟩
    · exact hunused huse
    · exact absurd (ho.starts_le hn) (by omega)
  constructor
  · exact fun hcurrent => hunused' (.inl hcurrent)
  · rintro op' ⟨stage', r, hstage', hr, hrn⟩
    rcases a.stage?_cases hstage' with ⟨-, rfl⟩ | ⟨-, hold⟩
    · exact hunused' (.inr (.inl ⟨r, hr, hrn⟩))
    · exact hdisplaces op' ⟨stage', r, hold, hr, hrn⟩

/-- A record that was displaced stays so, comes back, or is gone for good. -/
theorem Displaces.advance {op' : Nat} (h : s.Displaces op' n) (ho : s.Ordered)
    (a : s.Advances t op signal stage next told) :
    t.Displaces op' n ∨ (op' = op ∧ s.BringsBack op n) ∨ t.Gone n := by
  have hserial := ho.not_current_of_displaces h
  obtain ⟨stage', r, hstage', hr, hrn⟩ := h
  by_cases hop : op' = op
  · subst hop
    obtain rfl := Option.some.inj (hstage'.symm.trans a.before)
    have hlaunched := Stage.isLaunched_of_displaced? hr
    cases a.transition.recordMove with
    | keeps _ hsame =>
      refine .inl ⟨next, r, a.stage?_self ?_, hsame ▸ hr, hrn⟩
      rintro answer rfl
      rw [← hsame] at hr
      cases hr
    | retires _ _ _ hout => rw [hlaunched] at hout; cases hout
    | installs hstart =>
      cases stage' with
      | install l resolved serial => cases hr
      | _ => cases hstart
    | rollsBack hroll =>
      subst hroll
      obtain rfl : _ = some r := hr
      exact .inr (.inl ⟨rfl, _, r, _, a.before, hrn⟩)
    | commits _ hrecord hnone =>
      right; right
      refine ⟨by rw [hrecord]; exact hserial, ?_⟩
      rintro op'' ⟨stage'', r'', hstage'', hr'', -⟩
      rcases a.stage?_cases hstage'' with ⟨-, rfl⟩ | ⟨hne, hold⟩
      · rw [hnone] at hr''
        cases hr''
      · have hinside := Stage.isInside_of_isLaunched hlaunched
        exact hne (ho.alone a.before hinside hold
          (Stage.isInside_of_isLaunched (Stage.isLaunched_of_displaced? hr'')))
  · exact .inl ⟨stage', r, (a.stage?_of_ne hop).trans hstage', hr, hrn⟩

/-- A report that is being dealt with stays so until the track is not the current one. -/
theorem Handles.advance (h : s.Handles report n)
    (a : s.Advances t op signal stage next told) :
    t.Handles report n ∨
      t.stage? report = none ∧ t.controller.state.serial? ≠ some n := by
  obtain ⟨stage', hstage', hreport⟩ := h
  by_cases hop : report = op
  · subst hop
    obtain rfl := Option.some.inj (hstage'.symm.trans a.before)
    -- An operation that still belongs to the cascade is in flight.
    have hstill : ∀ {cascade}, next.cascade? = some cascade → cascade.ended = some n →
        t.Handles report n := by
      intro cascade hcascade hended
      refine ⟨next, a.stage?_self ?_, .inr ⟨cascade, hcascade, hended⟩⟩
      rintro answer rfl
      cases hcascade
    rcases hreport with ⟨request, rfl, hrequest⟩ | ⟨cascade, hcascade, hended⟩
    · rcases a.transition.reports hrequest with ⟨cascade, hnext, hended⟩ | ⟨hne, hd, answer, rfl⟩
      · exact .inl (hstill hnext hended)
      · exact .inr ⟨a.stage?_of_finished rfl, by rw [hd]; exact hne⟩
    · cases a.transition.numbering with
      | keeps _ _ hnext => exact .inl (hstill (hnext.trans hcascade) hended)
      | opens _ _ _ _ hnone => rw [hnone] at hcascade; cases hcascade
      | cancels _ _ hnone => rw [hnone] at hcascade; cases hcascade
      | closes hclose hd hnext =>
        subst hclose hnext
        obtain rfl := Option.some.inj hcascade
        refine .inr ⟨a.stage?_of_finished rfl, ?_⟩
        rw [hd]
        exact Controller.serial?_closeCascade_ne hended _
  · exact .inl ⟨stage', (a.stage?_of_ne hop).trans hstage', hreport⟩

/-! ## A whole run -/

/-- A report is being dealt with, or it was, and the track is gone or displaced. -/
def DealsWith (s : System) (report n : Nat) : Prop :=
  s.Handles report n ∨ s.Gone n ∨ s.stage? report = none ∧ ∃ op, s.Displaces op n

theorem dealsWith_of_not_current (hover : s.stage? report = none)
    (hserial : s.controller.state.serial? ≠ some n) : s.DealsWith report n :=
  .inr ((gone_or_displaces hserial).imp_right fun hdisplaces => ⟨hover, hdisplaces⟩)

theorem DealsWith.arrive (h : s.DealsWith report n) (ho : s.Ordered) (hlt : report < s.fresh)
    (request : Request) : (s.arrive request).DealsWith report n := by
  have hreport : (s.arrive request).stage? report = s.stage? report := by
    rw [ho.stage?_arrive, if_neg (Nat.ne_of_lt hlt)]
  rcases h with ⟨stage, hstage, hcase⟩ | ⟨hserial, hdisplaces⟩ | ⟨hover, op, stage, r, hstage, hr⟩
  · exact .inl ⟨stage, hreport.trans hstage, hcase⟩
  · right; left
    refine ⟨hserial, ?_⟩
    rintro op ⟨stage, r, hstage, hr, hrn⟩
    rcases ho.stage?_arrive_cases hstage with ⟨-, rfl⟩ | ⟨-, hold⟩
    · cases hr
    · exact hdisplaces op ⟨stage, r, hold, hr, hrn⟩
  · right; right
    exact ⟨hreport.trans hover, op, stage, r, ho.stage?_arrive_of_some hstage request, hr⟩

theorem DealsWith.advance (h : s.DealsWith report n) (ho : s.Ordered) (hn : n ∈ s.starts)
    (a : s.Advances t op signal stage next told) :
    t.DealsWith report n ∨ s.stage? report = none ∧ s.BringsBack op n := by
  rcases h with hhandles | hgone | ⟨hover, op', hdisplaces⟩
  · rcases hhandles.advance a with hhandles | ⟨hover, hserial⟩
    · exact .inl (.inl hhandles)
    · exact .inl (dealsWith_of_not_current hover hserial)
  · exact .inl (.inr (.inl (hgone.advance ho hn a)))
  · have hne : report ≠ op := by
      rintro rfl
      rw [a.before] at hover
      cases hover
    rcases hdisplaces.advance ho a with hdisplaces | ⟨-, hback⟩ | hgone
    · exact .inl (.inr (.inr ⟨(a.stage?_of_ne hne).trans hover, op', hdisplaces⟩))
    · exact .inr ⟨hover, hback⟩
    · exact .inl (.inr (.inl hgone))

/-- All along a run a report is dealt with, unless the record was brought back after it. -/
theorem DealsWith.run (h : s.DealsWith report n) (ho : s.Ordered) (hn : n ∈ s.starts)
    (hlt : report < s.fresh) (run : s.Run anyMove moves t) :
    report < t.fresh ∧ (t.DealsWith report n ∨ s.BroughtBackSince moves t report n) := by
  induction run with
  | nil => exact ⟨hlt, .inl h⟩
  | @snoc moves u v m run hallowed hmove ih =>
    obtain ⟨hlt, ih⟩ := ih
    have hou := ho.run run
    cases m with
    | arrive request =>
      obtain rfl : u.arrive request = v := by simpa [move?] using hmove
      refine ⟨Nat.lt_succ_of_lt hlt, ?_⟩
      rcases ih with ih | ⟨before, op, signal, after, w, x, rfl, hbefore, hback⟩
      · exact .inl (ih.arrive hou hlt request)
      · obtain ⟨hover, hback, hstep, hafter⟩ := hback
        exact .inr ⟨before, op, signal, after ++ [.arrive request], w, x, by simp, hbefore,
          hover, hback, hstep, hafter.snoc hallowed hmove⟩
    | advance op signal =>
      obtain ⟨stage, next, told, a⟩ := advances_of_advance? hmove
      refine ⟨by rw [a.fresh]; exact hlt, ?_⟩
      rcases ih with ih | ⟨before, op', signal', after, w, x, rfl, hbefore, hback⟩
      · rcases ih.advance hou (ho.mem_starts hn run) a with ih | ⟨hover, hback⟩
        · exact .inl ih
        · exact .inr ⟨moves, op, signal, [], u, v, rfl, run, hover, hback, hmove, .nil⟩
      · obtain ⟨hover, hback, hstep, hafter⟩ := hback
        exact .inr ⟨before, op', signal', after ++ [.advance op signal], w, x, by simp, hbefore,
          hover, hback, hstep, hafter.snoc hallowed hmove⟩

theorem not_dealsWith_of_quiet (hquiet : t.Quiet) (hcurrent : t.controller.state.serial? = some n) :
    ¬t.DealsWith report n := by
  have hnone : ∀ op, t.stage? op = none := by
    intro op
    have hempty : t.inFlight = [] := hquiet
    simp [stage?, hempty]
  rintro (⟨stage, hstage, -⟩ | ⟨hserial, -⟩ | ⟨-, op, stage, r, hstage, -⟩)
  · simp [hnone] at hstage
  · exact hserial hcurrent
  · simp [hnone] at hstage

/-- Once nothing is in flight, on a run of any requests with any answers, the end of the
current track was reported after its start exactly if this happened: the report was dealt with
while another start had displaced the record, and then that start failed. -/
theorem current_reported_iff (account : Account) (self : Nat) (words : RandomWords)
    (hquiet : t.Quiet) (hcurrent : t.controller.state.serial? = some n) :
    (start (Controller.start account self words)).Reported moves t n ↔
      (start (Controller.start account self words)).ReportedInVain moves t n := by
  constructor
  · rintro ⟨before, request, after, u, hmoves, hbefore, hn, hreport, hafter⟩
    refine ⟨before, request, after, u, hmoves, hbefore, hn, hreport, ?_⟩
    have ho := (ordered_start account self words).run hbefore
    have hhandles : (u.arrive request).Handles u.fresh n :=
      ⟨.begin request, by rw [ho.stage?_arrive, if_pos rfl], .inl ⟨request, rfl, hreport⟩⟩
    have hdeals : (u.arrive request).DealsWith u.fresh n := .inl hhandles
    obtain ⟨-, hdeals | hback⟩ :=
      hdeals.run (ho.arrive request) hn (Nat.lt_succ_self _) hafter
    · exact absurd hdeals (not_dealsWith_of_quiet hquiet hcurrent)
    · exact hback
  · rintro ⟨before, request, after, u, hmoves, hbefore, hn, hreport, hback⟩
    obtain ⟨before', op, signal, after', v, w, rfl, hbefore', -, -, hstep, hafter'⟩ := hback
    refine ⟨before, request, _, u, hmoves, hbefore, hn, hreport, ?_⟩
    have hjoin := (hbefore'.snoc (m := .advance op signal) trivial hstep).append hafter'
    simpa using hjoin

/-- A track plays, the next one is asked for, and while it starts the end of the first is
reported; then the player refuses the second. -/
theorem current_reported_iff_of_refusal :
    let before : List Move := .arrive (.enqueue (.direct "a")) :: goes 0 6 ++
      .advance 0 (.played (.ok ())) :: goes 0 3 ++
      .arrive (.enqueue (.direct "b")) :: goes 1 1 ++ .arrive .playNext :: goes 2 6
    let after : List Move :=
      goes 3 1 ++ .advance 2 (.played (.error (.player "boom"))) :: goes 2 4
    let t := ((blank.after before).arrive (.ended 1)).after after
    t.Quiet ∧ t.controller.state.serial? = some 1 ∧
      blank.Reported (before ++ .arrive (.ended 1) :: after) t 1 ∧
      blank.ReportedInVain (before ++ .arrive (.ended 1) :: after) t 1 := by
  intro before after t
  have hquiet : t.inFlight = [] := by decide +kernel
  have hcurrent : t.controller.state.serial? = some 1 := by decide +kernel
  have hreported : blank.Reported (before ++ .arrive (.ended 1) :: after) t 1 :=
    ⟨before, .ended 1, after, blank.after before, rfl, run_after (by decide +kernel),
      by decide +kernel, rfl, run_after (by decide +kernel)⟩
  exact ⟨hquiet, hcurrent, hreported,
    (current_reported_iff ⟨default, ⟨[], .standard⟩, .empty⟩ 0 [] hquiet hcurrent).mp hreported⟩

end System

end Jukebox
