import Jukebox.Proofs.Playback.Seeking
import Jukebox.Proofs.Playback.Silence

/-!
# Runs on which nobody stops

Tracks are added and asked for, and cascades are opened; nobody stops, and no track is taken out
of the queue by hand.  On such a run the newest cascade has the newest token, so it is the only
one that comes inside the gate.  Once it has started a track, nobody takes the record of this
track away until another cascade is opened (`System.Playing`).
-/

namespace Jukebox

namespace System

variable {s t : System} {op op' : Nat} {signal : Signal} {stage stage' next : Stage}
  {told : List PlaybackEvent} {moves : List Move}

/-- Nobody stops, and no track is taken out of the queue by hand. -/
def seeking (_ : System) : Move → Prop
  | .arrive request => request.seeks = true
  | .advance _ _ => True

/-- The newest cascade has come to this stage of the operation. -/
def NewestAt (s : System) (op : Nat) (stage : Stage) : Prop :=
  s.stage? op = some stage ∧ ∃ cascade, stage.cascade? = some cascade ∧ cascade.id = s.newest

/-! ## Where the newest cascade is -/

theorem NewestAt.arrive (h : s.NewestAt op stage) (ho : s.Ordered) (request : Request) :
    (s.arrive request).NewestAt op stage :=
  ⟨ho.stage?_arrive_of_some h.1 request, h.2⟩

theorem NewestAt.of_arrive {request : Request} (h : (s.arrive request).NewestAt op stage)
    (ho : s.Ordered) : s.NewestAt op stage := by
  obtain ⟨hstage, cascade, hcascade, hid⟩ := h
  exact ⟨ho.stage?_of_cascade? hstage hcascade, cascade, hcascade, hid⟩

theorem NewestAt.unique (h : s.NewestAt op stage) (h' : s.NewestAt op' stage')
    (hn : s.Numbered) : op' = op ∧ stage' = stage := by
  obtain ⟨hstage, cascade, hcascade, hid⟩ := h
  obtain ⟨hstage', cascade', hcascade', hid'⟩ := h'
  have hop := hn.alone hstage' hstage hcascade' hcascade (hid'.trans hid.symm)
  subst hop
  exact ⟨rfl, Option.some.inj (hstage'.symm.trans hstage)⟩

theorem NewestAt.token (h : s.NewestAt op stage) (hn : s.Numbered) {cascade : Cascade}
    (hcascade : stage.cascade? = some cascade) : cascade.token = s.controller.token := by
  obtain ⟨hstage, other, hother, hid⟩ := h
  obtain rfl := Option.some.inj (hother.symm.trans hcascade)
  rw [hn.token, (hn.cascade hstage hcascade).1, hid]

theorem newestAt_of_token (hn : s.Numbered) {cascade : Cascade}
    (hstage : s.stage? op = some stage) (hcascade : stage.cascade? = some cascade)
    (htoken : cascade.token = s.controller.token) : s.NewestAt op stage := by
  rw [hn.token, (hn.cascade hstage hcascade).1] at htoken
  exact ⟨hstage, cascade, hcascade, htoken⟩

/-- While no cascade is opened, the newest one is after a step where it was before, or the
operation that took the step has it. -/
theorem NewestAt.cases_advance (h : t.NewestAt op' stage')
    (a : s.Advances t op signal stage next told) (hsame : t.newest = s.newest) :
    (op' = op ∧ stage' = next) ∧ s.NewestAt op stage ∨ op' ≠ op ∧ s.NewestAt op' stage' := by
  obtain ⟨hstage', cascade, hcascade, hid⟩ := h
  obtain ⟨old, hold, hcascade'⟩ := a.cascade_of_newest_eq hsame hstage' hcascade
  rcases a.stage?_cases hstage' with ⟨rfl, rfl⟩ | ⟨hne, hkept⟩
  · obtain rfl := Option.some.inj (hold.symm.trans a.before)
    exact .inl ⟨⟨rfl, rfl⟩, hold, cascade, hcascade', hid.trans hsame⟩
  · exact .inr ⟨hne, hkept, cascade, hcascade, hid.trans hsame⟩

theorem NewestAt.advance_of_ne (h : s.NewestAt op' stage')
    (a : s.Advances t op signal stage next told) (hsame : t.newest = s.newest)
    (hne : op' ≠ op) : t.NewestAt op' stage' := by
  obtain ⟨hstage', cascade, hcascade, hid⟩ := h
  exact ⟨(a.stage?_of_ne hne).trans hstage', cascade, hcascade, hid.trans hsame.symm⟩

theorem NewestAt.advance (h : s.NewestAt op stage) (a : s.Advances t op signal stage next told)
    (hsame : t.newest = s.newest) (hgoesOn : stage.isSettling = false) : t.NewestAt op next := by
  obtain ⟨-, cascade, hcascade, hid⟩ := h
  rcases a.cascade?_next hcascade with hkept | hsettling
  · refine ⟨a.stage?_self ?_, cascade, hkept, hid.trans hsame.symm⟩
    rintro answer rfl
    cases hkept
  · rw [hgoesOn] at hsettling
    cases hsettling

/-! ## What holds on such a run -/

/-- What holds on every run on which nobody stops. -/
structure Unstopped (s : System) : Prop where
  ordered : s.Ordered
  numbered : s.Numbered
  stage : ∀ {op stage}, s.stage? op = some stage → stage.seeks = true
  /-- While the newest cascade has a start open, the record that it made is current. -/
  launched : ∀ {op stage}, s.NewestAt op stage → stage.isLaunched = true → s.Sounding

theorem unstopped_start (account : Account) (self : Nat) (words : RandomWords) :
    (start (Controller.start account self words)).Unstopped where
  ordered := ordered_start account self words
  numbered := numbered_start account self words
  stage := fun h => by simp [start, stage?] at h
  launched := fun h => by simp [NewestAt, start, stage?] at h

theorem Unstopped.arrive (h : s.Unstopped) {request : Request}
    (hseeks : request.seeks = true) : (s.arrive request).Unstopped where
  ordered := h.ordered.arrive request
  numbered := h.numbered.arrive h.ordered request
  stage := by
    intro op stage hstage
    rcases h.ordered.stage?_arrive_cases hstage with ⟨-, rfl⟩ | ⟨-, hold⟩
    · exact hseeks
    · exact h.stage hold
  launched := by
    intro op stage hnewest hlaunched
    exact (h.launched (hnewest.of_arrive h.ordered) hlaunched).arrive h.ordered request

/-- An operation with an open start has not just opened its cascade. -/
theorem Advances.newest_eq_of_isLaunched (a : s.Advances t op signal stage next told)
    (ho : s.Ordered) (h : t.NewestAt op' stage') (hlaunched : stage'.isLaunched = true) :
    t.newest = s.newest := by
  obtain ⟨hstage', cascade, hcascade, hid⟩ := h
  have hle : cascade.id ≤ s.newest := by
    rcases a.stage?_cases hstage' with ⟨rfl, rfl⟩ | ⟨-, hold⟩
    · have hkept := (a.transition.cascade?_of_isLaunched hlaunched).symm.trans hcascade
      exact (ho.cascade a.before hkept).1
    · exact (ho.cascade hold hcascade).1
  have hgrows : s.newest ≤ t.newest := a.cascadeCount_le
  omega

theorem Unstopped.launched_advance (h : s.Unstopped)
    (a : s.Advances t op signal stage next told) (hnewest : t.NewestAt op' stage')
    (hlaunched : stage'.isLaunched = true) : t.Sounding := by
  have hsame := a.newest_eq_of_isLaunched h.ordered hnewest hlaunched
  rcases hnewest.cases_advance a hsame with ⟨⟨rfl, rfl⟩, hold⟩ | ⟨hne, hold⟩
  · cases a.transition.recordMove with
    | keeps _ _ hopen =>
      have hsounding := h.launched hold (hopen ▸ hlaunched)
      exact hsounding.advance h.ordered a (a.transition.withdraws_eq_false hlaunched) hsame
    | installs hstart hrecord => exact sounding_of_starts h.ordered a hsame hstart hrecord
    | retires _ _ hopen => rw [hopen] at hlaunched; cases hlaunched
    | rollsBack _ _ _ hopen => rw [hopen] at hlaunched; cases hlaunched
    | commits _ _ _ hopen => rw [hopen] at hlaunched; cases hlaunched
  · have hinside := Stage.isInside_of_isLaunched hlaunched
    have hout := h.ordered.not_isInside a.before hne hold.1 hinside
    have hkeeps : stage.withdraws = false :=
      Stage.withdraws_eq_false (h.stage a.before) fun hinside => by simp [hout] at hinside
    exact (h.launched hold hlaunched).advance h.ordered a hkeeps hsame

theorem Unstopped.advance (h : s.Unstopped) (a : s.Advances t op signal stage next told) :
    t.Unstopped where
  ordered := h.ordered.advance a
  numbered := by
    refine h.numbered.advance h.ordered a ?_
    rintro detaching rfl
    rcases a.transition.seeks (h.stage a.before) with hseeks | ⟨answer, hover⟩
    · cases hseeks
    · cases hover
  stage := by
    intro op' stage' hstage'
    rcases a.stage?_cases hstage' with ⟨rfl, rfl⟩ | ⟨-, hold⟩
    · rcases a.transition.seeks (h.stage a.before) with hseeks | ⟨answer, hover⟩
      · exact hseeks
      · rw [a.stage?_of_finished hover] at hstage'
        cases hstage'
    · exact h.stage hold
  launched := h.launched_advance a

theorem Unstopped.run (h : s.Unstopped) (run : s.Run seeking moves t) : t.Unstopped := by
  refine h.ordered.invariant h run ?_ ?_
  · intro v request _ h hseeks
    exact h.arrive hseeks
  · intro v w op signal stage next told _ h _ a
    exact h.advance a

/-- Whoever comes inside the gate is the newest cascade. -/
theorem Unstopped.newestAt_of_enters (h : s.Unstopped)
    (a : s.Advances t op signal stage next told) (hout : stage.isInside = false)
    (hinside : next.isInside = true) : s.NewestAt op stage ∧ ∃ l r, stage = .admission l r := by
  obtain ⟨l, r, rfl, htoken⟩ := a.transition.enters (h.stage a.before) hout hinside
  exact ⟨newestAt_of_token h.numbered a.before rfl htoken, l, r, rfl⟩

/-! ## A track that was started -/

/-- The newest cascade has started a track, and nobody takes its record away. -/
structure Playing (s : System) : Prop where
  sounding : s.Sounding
  inside : ∀ {op stage}, s.stage? op = some stage → stage.isInside = true →
    stage.hasStarted = true
  newest : ∀ {op stage}, s.NewestAt op stage → stage.hasStarted = true ∨ stage.isSettling = true

theorem Unstopped.playing (h : s.Unstopped) (hnewest : s.NewestAt op stage)
    (hstarted : stage.hasStarted = true) : s.Playing where
  sounding := h.launched hnewest (Stage.isLaunched_of_hasStarted hstarted)
  inside := by
    intro op' stage' hstage' hinside
    have hop := h.ordered.alone hnewest.1 (Stage.isInside_of_hasStarted hstarted) hstage' hinside
    subst hop
    obtain rfl := Option.some.inj (hnewest.1.symm.trans hstage')
    exact hstarted
  newest := by
    intro op' stage' hnewest'
    obtain ⟨-, rfl⟩ := hnewest.unique hnewest' h.numbered
    exact .inl hstarted

theorem Playing.arrive (h : s.Playing) (ho : s.Ordered) (request : Request) :
    (s.arrive request).Playing where
  sounding := h.sounding.arrive ho request
  inside := by
    intro op stage hstage hinside
    rcases ho.stage?_arrive_cases hstage with ⟨-, rfl⟩ | ⟨-, hold⟩
    · cases hinside
    · exact h.inside hold hinside
  newest := fun hnewest => h.newest (hnewest.of_arrive ho)

/-- Nobody comes inside the gate any more, since the newest cascade searches no longer. -/
theorem Playing.inside_next (h : s.Playing) (hs : s.Unstopped)
    (a : s.Advances t op signal stage next told) (hinside : next.isInside = true) :
    next.hasStarted = true := by
  cases hbefore : stage.isInside with
  | true =>
    rcases a.transition.finishes (.inl (h.inside a.before hbefore)) with
      hstarted | hsettling | ⟨answer, rfl⟩
    · exact hstarted
    · rw [Stage.isInside_of_isSettling hsettling] at hinside
      cases hinside
    · cases hinside
  | false =>
    obtain ⟨hnewest, l, r, rfl⟩ := hs.newestAt_of_enters a hbefore hinside
    rcases h.newest hnewest with hstarted | hsettling
    · cases hstarted
    · cases hsettling

theorem Playing.advance (h : s.Playing) (hs : s.Unstopped)
    (a : s.Advances t op signal stage next told) (hsame : t.newest = s.newest) : t.Playing where
  sounding :=
    h.sounding.advance hs.ordered a
      (Stage.withdraws_eq_false (hs.stage a.before) (h.inside a.before)) hsame
  inside := by
    intro op' stage' hstage' hinside
    rcases a.stage?_cases hstage' with ⟨-, rfl⟩ | ⟨-, hold⟩
    · exact h.inside_next hs a hinside
    · exact h.inside hold hinside
  newest := by
    intro op' stage' hnewest
    rcases hnewest.cases_advance a hsame with ⟨⟨-, rfl⟩, hold⟩ | ⟨-, hold⟩
    · rcases a.transition.finishes (h.newest hold) with hstarted | hsettling | ⟨answer, rfl⟩
      · exact .inl hstarted
      · exact .inr hsettling
      · obtain ⟨-, cascade, hcascade, -⟩ := hnewest
        cases hcascade
    · exact h.newest hold

end System

end Jukebox
