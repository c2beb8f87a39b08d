import Jukebox.Proofs.Playback.Order

/-!
# The newest request wins, and a stop is final

Of two starts on a run the later has the larger serial, and its cascade is not older.  Once an
explicit stop is inside the gate, no cascade that was opened before the stop took the token
away starts a track any more, and until the stop leaves the gate no track is current.

The token decides who may enter the gate, and the gate decides who may start.  So the argument
is about the operations that are about to start: whoever joins them has the newest token.
-/

namespace Jukebox

namespace Controller

variable {c d : Controller} {op : Nat} {stage next : Stage} {signal : Signal}

/-- The step with which a stop takes the token away, and nothing else. -/
theorem Transition.cancels (h : Transition c op stage signal d next)
    (hstage : stage = .begin (.stop false) ∨ stage = .cancelPending) :
    d = c.cancelPending ∧ next.cascade? = none := by
  rcases hstage with rfl | rfl
  · cases h with
    | begin e => cases e; exact ⟨rfl, rfl⟩
    | cancel hstage => cases hstage
    | pauseSet hstage => cases hstage
    | pauseKept hstage => cases hstage
  · cases h with
    | cancelPending => exact ⟨rfl, rfl⟩
    | cancel hstage => cases hstage
    | pauseSet hstage => cases hstage
    | pauseKept hstage => cases hstage

/-- The step with which a stop enters the gate. -/
theorem Transition.entersToStop {detaching : Bool}
    (h : Transition c op (.stopAdmission detaching) signal d next) :
    next = .retire detaching := by
  cases h with
  | enterToStop => rfl
  | cancel hstage => cases hstage
  | pauseSet hstage => cases hstage
  | pauseKept hstage => cases hstage

theorem ne_halting_of_outside {detaching : Bool} (h : stage.isInside = false) :
    stage ≠ .halting detaching := by
  rintro rfl
  cases h

/-- A stop that waits for the player to halt has just retired the record. -/
theorem Transition.retiresToHalt {detaching : Bool} (h : Transition c op stage signal d next)
    (hnext : next = .halting detaching) : d.state.serial? = none := by
  cases h with
  | begin e begins => exact absurd hnext (ne_halting_of_outside begins.isInside)
  | measure => exact absurd hnext (ne_halting_of_outside (unburdened_nextAttempt c _).isInside)
  | retry => exact absurd hnext (ne_halting_of_outside (unburdened_nextAttempt c _).isInside)
  | rollBack => exact absurd hnext (ne_halting_of_outside (unburdened_failed _ _).isInside)
  | commit => exact absurd hnext (ne_halting_of_outside (unburdened_succeeded _).isInside)
  | refuse => exact absurd hnext (ne_halting_of_outside (isInside_superseded _))
  | cancel => exact absurd hnext (ne_halting_of_outside (isInside_superseded _))
  | resolveFails => exact absurd hnext (ne_halting_of_outside (unburdened_failed _ _).isInside)
  | retire => exact congrArg (Option.map _) (retire_frame _).1
  | _ => cases hnext

end Controller

namespace System

variable {allowed : System → Move → Prop} {s t : System} {op : Nat} {signal : Signal}
  {stage next : Stage} {told : List PlaybackEvent} {m : Move}

/-- A move calls the player to start a track, with a serial and on behalf of a cascade. -/
structure StartsTrack (s : System) (m : Move) (t : System) (serial : Nat)
    (cascade : Cascade) : Prop where
  move : s.move? m = some t
  call : t.starts = s.starts ++ [serial]
  caller : ∃ op signal stage, m = .advance op signal ∧ s.stage? op = some stage ∧
    stage.cascade? = some cascade

/-- The step with which an explicit stop takes the token away. -/
def StopCancels (s : System) (op : Nat) (t : System) : Prop :=
  s.move? (.advance op .go) = some t ∧
    (s.stage? op = some (.begin (.stop false)) ∨ s.stage? op = some .cancelPending)

/-- The step with which an explicit stop enters the gate. -/
def StopEnters (s : System) (op : Nat) (t : System) : Prop :=
  s.move? (.advance op .go) = some t ∧
    ∃ detaching, s.stage? op = some (.stopAdmission detaching)

/-- Whoever is about to start a track belongs to a cascade that is not below `least`. -/
def StartersFrom (s : System) (least : Nat) : Prop :=
  ∀ ⦃op stage serial cascade⦄, s.stage? op = some stage → stage.start? = some serial →
    stage.cascade? = some cascade → least ≤ cascade.id

/-- The token is newer than that of any cascade below `least`. -/
def TokenPast (s : System) (least : Nat) : Prop :=
  ∀ ⦃op stage cascade⦄, s.stage? op = some stage → stage.cascade? = some cascade →
    cascade.id < least → cascade.token < s.controller.token

theorem StartsTrack.advances {serial : Nat} {cascade : Cascade}
    (h : s.StartsTrack m t serial cascade) :
    ∃ op signal stage next told, s.Advances t op signal stage next told ∧
      stage.start? = some serial ∧ stage.cascade? = some cascade := by
  obtain ⟨op, signal, stage, rfl, hstage, hcascade⟩ := h.caller
  obtain ⟨stage', next, told, a⟩ := advances_of_advance? h.move
  obtain rfl : stage' = stage := Option.some.inj (a.before.symm.trans hstage)
  have hstart : s.starts ++ stage'.start?.toList = s.starts ++ [serial] :=
    a.starts.symm.trans h.call
  refine ⟨op, signal, stage', next, told, a, ?_, hcascade⟩
  cases hserial : stage'.start? with
  | none => simp [hserial] at hstart
  | some serial' => simpa [hserial] using hstart

/-- Nothing else calls the player to start a track. -/
theorem startsTrack_of_starts_ne (hmove : s.move? m = some t) (hstarts : t.starts ≠ s.starts) :
    ∃ serial cascade, s.StartsTrack m t serial cascade := by
  cases m with
  | arrive request =>
    obtain rfl : s.arrive request = t := by simpa [move?] using hmove
    exact absurd rfl hstarts
  | advance op signal =>
    obtain ⟨stage, next, told, a⟩ := advances_of_advance? hmove
    cases hserial : stage.start? with
    | none => exact absurd (by simp [a.starts, hserial]) hstarts
    | some serial =>
      cases stage with
      | install l r n =>
        exact ⟨serial, _, hmove, by simp [a.starts, hserial], op, signal, _, rfl, a.before, rfl⟩
      | _ => cases hserial

/-- No start is under way right after a step that leaves somebody else inside the gate. -/
theorem Ordered.startersFrom_of_isInside (h : t.Ordered) (hstage : t.stage? op = some stage)
    (hinside : stage.isInside = true) (hstart : stage.start? = none) (least : Nat) :
    t.StartersFrom least := by
  intro op' stage' serial cascade hstage' hserial _
  obtain rfl := h.alone hstage hinside hstage' (Stage.isInside_of_start? hserial)
  obtain rfl := Option.some.inj (hstage.symm.trans hstage')
  rw [hstart] at hserial
  cases hserial

/-! ## Who joins those that are about to start -/

theorem StartersFrom.advance {least : Nat} (h : s.StartersFrom least)
    (a : s.Advances t op signal stage next told)
    (hjoin : ∀ cascade, stage.cascade? = some cascade →
      cascade.token = s.controller.token → least ≤ cascade.id) : t.StartersFrom least := by
  intro op' stage' serial cascade hstage' hserial hcascade
  rcases a.stage?_cases hstage' with ⟨rfl, rfl⟩ | ⟨-, hold⟩
  · rcases a.transition.numbersStart with ⟨-, hnone⟩ | ⟨-, -, hbefore, -, old, hold, htoken⟩
    · rw [hnone] at hserial
      cases hserial
    · have hsame : stage'.cascade? = stage.cascade? := by
        cases a.transition.numbering with
        | keeps _ _ hnext => exact hnext
        | opens _ _ _ _ hstage => rw [hstage] at hold; cases hold
        | cancels _ _ hstage => rw [hstage] at hold; cases hold
        | closes _ _ hnext => subst hnext; cases hcascade
      exact hjoin cascade (hsame.symm.trans hcascade)
        (Option.some.inj ((hsame.trans hold).symm.trans hcascade) ▸ htoken)
  · exact h hold hserial hcascade

theorem StartersFrom.arrive {least : Nat} (h : s.StartersFrom least) (ho : s.Ordered)
    (request : Request) : (s.arrive request).StartersFrom least := by
  intro op stage serial cascade hstage hserial hcascade
  rcases ho.stage?_arrive_cases hstage with ⟨-, rfl⟩ | ⟨-, hold⟩
  · cases hserial
  · exact h hold hserial hcascade

theorem TokenPast.advance {least : Nat} (h : s.TokenPast least)
    (hleast : least ≤ s.controller.state.cascadeCount + 1)
    (a : s.Advances t op signal stage next told) : t.TokenPast least := by
  intro op' stage' cascade hstage' hcascade hid
  have hgrow := a.token_le
  rcases a.stage?_cases hstage' with ⟨rfl, rfl⟩ | ⟨-, hold⟩
  · cases a.transition.numbering with
    | keeps _ _ hnext =>
      exact Nat.lt_of_lt_of_le (h a.before (hnext ▸ hcascade) hid) hgrow
    | opens _ _ _ _ _ hnext =>
      obtain rfl := Option.some.inj (hnext.symm.trans hcascade)
      exact absurd hid (Nat.not_lt.mpr hleast)
    | cancels _ _ _ hnext => rw [hnext] at hcascade; cases hcascade
    | closes _ _ hnext => subst hnext; cases hcascade
  · exact Nat.lt_of_lt_of_le (h hold hcascade hid) hgrow

theorem TokenPast.arrive {least : Nat} (h : s.TokenPast least) (ho : s.Ordered)
    (request : Request) : (s.arrive request).TokenPast least := by
  intro op stage cascade hstage hcascade hid
  exact h (ho.stage?_of_cascade? hstage hcascade) hcascade hid

/-! ## From one start to the next -/

/-- After a start of a cascade nobody is about to start a track for an older one, and so it
stays. -/
theorem startersFrom_of_run {least : Nat} {moves : List Move} (ho : s.Ordered)
    (h : s.StartersFrom least) (hleast : least ≤ s.controller.state.cascadeCount)
    (run : s.Run allowed moves t) : t.StartersFrom least := by
  have hall : least ≤ t.controller.state.cascadeCount ∧ t.StartersFrom least := by
    refine ho.invariant
      (P := fun v => least ≤ v.controller.state.cascadeCount ∧ v.StartersFrom least)
      ⟨hleast, h⟩ run ?_ ?_
    · intro v request ho h _
      exact ⟨h.1, h.2.arrive ho request⟩
    · intro v w op signal stage next told ho h _ a
      refine ⟨Nat.le_trans h.1 a.cascadeCount_le, h.2.advance a ?_⟩
      intro cascade hcascade htoken
      exact ((ho.cascade a.before hcascade).2.2 htoken).symm ▸ h.1
  exact hall.2

/-- A track that starts has the newest token behind it when it enters the gate, so its cascade
is at most as old as the newest. -/
theorem Ordered.startersFrom_of_startsTrack {serial : Nat} {cascade : Cascade} (ho : s.Ordered)
    (h : s.StartsTrack m t serial cascade) :
    serial ∈ t.starts ∧ cascade.id ≤ t.controller.state.cascadeCount ∧
      t.StartersFrom cascade.id := by
  obtain ⟨op, signal, stage, next, told, a, hstart, hcascade⟩ := h.advances
  refine ⟨by simp [h.call], ?_, ?_⟩
  · exact Nat.le_trans (ho.cascade a.before hcascade).1 a.cascadeCount_le
  · intro op' stage' serial' cascade' hstage' hserial' _
    have hinside := Stage.isInside_of_start? hstart
    rcases a.stage?_cases hstage' with ⟨rfl, rfl⟩ | ⟨hne, hold⟩
    · rcases a.transition.numbersStart with ⟨-, hnone⟩ | ⟨-, -, hnone, -⟩
      · rw [hnone] at hserial'
        cases hserial'
      · rw [hnone] at hstart
        cases hstart
    · exact absurd (ho.alone a.before hinside hold (Stage.isInside_of_start? hserial')) hne

/-! ## From a stop on -/

theorem tokenPast_of_stopCancels (ho : s.Ordered) (h : s.StopCancels op t) :
    t.TokenPast (s.controller.state.cascadeCount + 1) ∧
      t.controller.state.cascadeCount = s.controller.state.cascadeCount := by
  obtain ⟨hmove, hstage⟩ := h
  obtain ⟨stage, next, told, a⟩ := advances_of_advance? hmove
  have hbegin : stage = .begin (.stop false) ∨ stage = .cancelPending :=
    hstage.imp (fun h => Option.some.inj (a.before.symm.trans h))
      (fun h => Option.some.inj (a.before.symm.trans h))
  obtain ⟨hcontroller, hnext⟩ := a.transition.cancels hbegin
  refine ⟨?_, by rw [hcontroller]; rfl⟩
  intro op' stage' cascade hstage' hcascade _
  rw [hcontroller]
  rcases a.stage?_cases hstage' with ⟨rfl, rfl⟩ | ⟨-, hold⟩
  · rw [hnext] at hcascade
    cases hcascade
  · exact Nat.lt_succ_of_le (ho.cascade hold hcascade).2.1

theorem tokenPast_of_run {least : Nat} {moves : List Move} (ho : s.Ordered)
    (h : s.TokenPast least) (hleast : least ≤ s.controller.state.cascadeCount + 1)
    (run : s.Run allowed moves t) :
    t.TokenPast least ∧ least ≤ t.controller.state.cascadeCount + 1 := by
  refine ho.invariant
    (P := fun v => v.TokenPast least ∧ least ≤ v.controller.state.cascadeCount + 1)
    ⟨h, hleast⟩ run ?_ ?_
  · intro v request ho h _
    exact ⟨h.1.arrive ho request, h.2⟩
  · intro v w op signal stage next told _ h _ a
    exact ⟨h.1.advance h.2 a, Nat.le_trans h.2 (Nat.succ_le_succ a.cascadeCount_le)⟩

theorem startersFrom_of_tokenPast {least : Nat} {moves : List Move} (ho : s.Ordered)
    (hstarters : s.StartersFrom least) (hpast : s.TokenPast least)
    (hleast : least ≤ s.controller.state.cascadeCount + 1)
    (run : s.Run allowed moves t) : t.StartersFrom least := by
  have hall : t.TokenPast least ∧ least ≤ t.controller.state.cascadeCount + 1 ∧
      t.StartersFrom least := by
    refine ho.invariant (P := fun v => v.TokenPast least ∧
      least ≤ v.controller.state.cascadeCount + 1 ∧ v.StartersFrom least)
      ⟨hpast, hleast, hstarters⟩ run ?_ ?_
    · rintro v request ho ⟨hpast, hleast, h⟩ -
      exact ⟨hpast.arrive ho request, hleast, h.arrive ho request⟩
    · rintro v w op signal stage next told ho ⟨hpast, hleast, h⟩ - a
      refine ⟨hpast.advance hleast a,
        Nat.le_trans hleast (Nat.succ_le_succ a.cascadeCount_le), h.advance a ?_⟩
      -- A cascade below `least` does not have the newest token.
      intro cascade hcascade htoken
      refine Nat.le_of_not_lt fun hid => ?_
      exact absurd htoken (Nat.ne_of_lt (hpast a.before hcascade hid))
  exact hall.2.2

/-- While a stop waits for the player to halt, no track is current. -/
def SilentWhileHalting (s : System) : Prop :=
  ∀ ⦃op detaching⦄, s.stage? op = some (.halting detaching) →
    s.controller.state.serial? = none

theorem SilentWhileHalting.advance (h : s.SilentWhileHalting) (ho : s.Ordered)
    (a : s.Advances t op signal stage next told) : t.SilentWhileHalting := by
  intro op' detaching hstage'
  rcases a.stage?_cases hstage' with ⟨rfl, rfl⟩ | ⟨hne, hold⟩
  · exact a.transition.retiresToHalt rfl
  · have hsilent := h hold
    have hout := ho.not_isInside a.before hne hold rfl
    cases a.transition.recordMove with
    | keeps hrecord => exact hrecord.trans hsilent
    | retires hrecord => exact hrecord
    | installs hstage => simp [Stage.isInside_of_start? hstage] at hout
    | rollsBack hstage => subst hstage; cases hout
    | commits hstage => simp [Stage.isInside_of_isLaunched hstage] at hout

theorem silentWhileHalting_of_run {moves : List Move} (ho : s.Ordered)
    (h : s.SilentWhileHalting) (run : s.Run allowed moves t) : t.SilentWhileHalting := by
  refine ho.invariant h run ?_ ?_
  · intro v request ho h _ op detaching hstage
    rcases ho.stage?_arrive_cases hstage with ⟨-, hbegin⟩ | ⟨-, hold⟩
    · cases hbegin
    · exact h hold
  · intro v w op signal stage next told ho h _ a
    exact h.advance ho a

/-- Of two starts the later has the larger serial, and no older cascade. -/
theorem Ordered.lt_of_startsTrack {between : List Move} {s' t' : System} {m' : Move}
    {serial serial' : Nat} {cascade cascade' : Cascade} (ho : s.Ordered)
    (hs : s.StartsTrack m s' serial cascade) (run : s'.Run allowed between t)
    (ht : t.StartsTrack m' t' serial' cascade') :
    serial < serial' ∧ cascade.id ≤ cascade'.id := by
  have ho' := ho.move hs.move
  obtain ⟨hmem, hcount, hstarters⟩ := ho.startersFrom_of_startsTrack hs
  obtain ⟨op, signal, stage, next, told, a, hserial, hcascade⟩ := ht.advances
  constructor
  · exact ((ho'.run run).install a.before hserial).2 serial (ho'.mem_starts hmem run)
  · exact startersFrom_of_run ho' hstarters hcount run a.before hserial hcascade

/-- Once a stop is inside the gate, only a cascade that was opened after it took the token away
starts a track. -/
theorem Ordered.lt_of_stopEnters {waiting after : List Move} {s' t' u u' : System}
    {serial : Nat} {cascade : Cascade} (ho : s.Ordered) (hcancel : s.StopCancels op s')
    (run : s'.Run allowed waiting t) (henter : t.StopEnters op t')
    (run' : t'.Run allowed after u) (hu : u.StartsTrack m u' serial cascade) :
    s.controller.state.cascadeCount < cascade.id := by
  have ho' := ho.move hcancel.1
  have hot := ho'.run run
  obtain ⟨hpast, hcount⟩ := tokenPast_of_stopCancels ho hcancel
  obtain ⟨hpast, hleast⟩ := tokenPast_of_run ho' hpast (by omega) run
  obtain ⟨hmove, detaching, hstage⟩ := henter
  obtain ⟨stage, next, told, a⟩ := advances_of_advance? hmove
  obtain rfl := Option.some.inj (a.before.symm.trans hstage)
  obtain rfl := a.transition.entersToStop
  have hinside : t'.stage? op = some (.retire detaching) := a.stage?_self (by simp)
  -- Nobody is about to start while the stop enters, and whoever joins later has a new token.
  have hpast' := hpast.advance hleast a
  have hleast' := Nat.le_trans hleast (Nat.succ_le_succ a.cascadeCount_le)
  have hot' := hot.advance a
  have hstarters := hot'.startersFrom_of_isInside hinside rfl rfl
    (s.controller.state.cascadeCount + 1)
  obtain ⟨op', signal', stage', next', told', a', hserial, hcascade⟩ := hu.advances
  exact startersFrom_of_tokenPast hot' hstarters hpast' hleast' run' a'.before hserial hcascade

/-- On every run of any requests with any answers: of two starts the later has the larger
serial and no older cascade; once a stop is inside the gate, only cascades that were opened
after it took the token away start a track; and until it leaves the gate no track is
current. -/
theorem newest_request_wins (account : Account) (self : Nat) (words : RandomWords) :
    (∀ {before between : List Move} {s s' t t' : System} {m m' : Move} {serial serial' : Nat}
        {cascade cascade' : Cascade},
      (start (Controller.start account self words)).Run anyMove before s →
      s.StartsTrack m s' serial cascade → s'.Run anyMove between t →
      t.StartsTrack m' t' serial' cascade' →
      serial < serial' ∧ cascade.id ≤ cascade'.id) ∧
    (∀ {before waiting after : List Move} {s s' t t' u u' : System} {op : Nat} {m : Move}
        {serial : Nat} {cascade : Cascade},
      (start (Controller.start account self words)).Run anyMove before s →
      s.StopCancels op s' → s'.Run anyMove waiting t → t.StopEnters op t' →
      t'.Run anyMove after u → u.StartsTrack m u' serial cascade →
      s.controller.state.cascadeCount < cascade.id) ∧
    ∀ {moves : List Move} {t : System} {op : Nat} {detaching : Bool},
      (start (Controller.start account self words)).Run anyMove moves t →
      t.stage? op = some (.halting detaching) → t.controller.state.record = none := by
  have hstart := ordered_start account self words
  refine ⟨?_, ?_, ?_⟩
  · intro before between s s' t t' m m' serial serial' cascade cascade' run hs run' ht
    exact (hstart.run run).lt_of_startsTrack hs run' ht
  · intro before waiting after s s' t t' u u' op m serial cascade run hcancel run' henter run''
      hu
    exact (hstart.run run).lt_of_stopEnters hcancel run' henter run'' hu
  · intro moves t op detaching run hhalting
    have hsilent := silentWhileHalting_of_run hstart (fun _ _ h => by simp [start, stage?] at h)
      run hhalting
    simpa [PlaybackState.serial?] using hsilent

theorem startsTrack_after {serial : Nat} {cascade : Cascade}
    (hmove : (s.move? (.advance op signal)).isSome)
    (hcall : (s.after [.advance op signal]).starts = s.starts ++ [serial])
    (hcaller : (s.stage? op).bind Stage.cascade? = some cascade) :
    s.StartsTrack (.advance op signal) (s.after [.advance op signal]) serial cascade := by
  obtain ⟨stage, hstage, hcascade⟩ := Option.bind_eq_some_iff.mp hcaller
  exact ⟨move?_eq_some_after hmove, hcall, op, signal, stage, rfl, hstage, hcascade⟩

/-- Two tracks are asked for one after the other; or one is asked for, a stop takes the token
away from it and waits for the gate, and another one is asked for meanwhile. -/
theorem newest_request_wins_of_rivals :
    let x : Move := .arrive (.playTrack (.direct "x") none)
    let y : Move := .arrive (.playTrack (.direct "y") none)
    let first := blank.after (x :: goes 0 3)
    let second := (first.after (goes 0 1)).after
      (.advance 0 (.played (.ok ())) :: y :: goes 0 2 ++ goes 1 3)
    let stopped := blank.after (x :: goes 0 2 ++ [.arrive (.stop false)])
    let entering := (stopped.after (goes 1 1)).after [y]
    let third := (entering.after (goes 1 1)).after
      (goes 1 1 ++ .advance 1 (.played (.ok ())) :: goes 2 3)
    (first.StartsTrack (.advance 0 .go) (first.after (goes 0 1)) 1 ⟨1, 1, none⟩ ∧
      second.StartsTrack (.advance 1 .go) (second.after (goes 1 1)) 2 ⟨2, 2, none⟩ ∧
      1 < 2 ∧ (⟨1, 1, none⟩ : Cascade).id ≤ (⟨2, 2, none⟩ : Cascade).id) ∧
    (stopped.StopCancels 1 (stopped.after (goes 1 1)) ∧
      entering.StopEnters 1 (entering.after (goes 1 1)) ∧
      third.StartsTrack (.advance 2 .go) (third.after (goes 2 1)) 1 ⟨2, 3, none⟩ ∧
      stopped.controller.state.cascadeCount < (⟨2, 3, none⟩ : Cascade).id) ∧
    ((entering.after (goes 1 2)).stage? 1 = some (.halting false) ∧
      (entering.after (goes 1 2)).controller.state.record = none) := by
  intro x y first second stopped entering third
  obtain ⟨hstarts, hstop, hhalting⟩ :=
    newest_request_wins ⟨default, ⟨[], .standard⟩, .empty⟩ 0 []
  have hfirst : first.StartsTrack (.advance 0 .go) (first.after (goes 0 1)) 1 ⟨1, 1, none⟩ :=
    startsTrack_after (by decide +kernel) (by decide +kernel) (by decide +kernel)
  have hsecond :
      second.StartsTrack (.advance 1 .go) (second.after (goes 1 1)) 2 ⟨2, 2, none⟩ :=
    startsTrack_after (by decide +kernel) (by decide +kernel) (by decide +kernel)
  have hcancels : stopped.StopCancels 1 (stopped.after (goes 1 1)) :=
    ⟨move?_eq_some_after (by decide +kernel), .inl (by decide +kernel)⟩
  have henters : entering.StopEnters 1 (entering.after (goes 1 1)) :=
    ⟨move?_eq_some_after (by decide +kernel), false, by decide +kernel⟩
  have hthird : third.StartsTrack (.advance 2 .go) (third.after (goes 2 1)) 1 ⟨2, 3, none⟩ :=
    startsTrack_after (by decide +kernel) (by decide +kernel) (by decide +kernel)
  have hrun : blank.Run anyMove _ first := run_after (by decide +kernel)
  have hrun' : (first.after (goes 0 1)).Run anyMove _ second := run_after (by decide +kernel)
  have hwait : blank.Run anyMove _ stopped := run_after (by decide +kernel)
  have hcancel : stopped.Run anyMove _ (stopped.after (goes 1 1)) :=
    run_after (by decide +kernel)
  have hwait' : (stopped.after (goes 1 1)).Run anyMove _ entering :=
    run_after (by decide +kernel)
  have hlate : (entering.after (goes 1 1)).Run anyMove _ third := run_after (by decide +kernel)
  have hhalt : entering.Run anyMove _ (entering.after (goes 1 2)) :=
    run_after (by decide +kernel)
  have hstage : (entering.after (goes 1 2)).stage? 1 = some (.halting false) := by
    decide +kernel
  have hlt := hstarts hrun hfirst hrun' hsecond
  have hnew := hstop hwait hcancels hwait' henters hlate hthird
  have hnone := hhalting (((hwait.append hcancel).append hwait').append hhalt) hstage
  exact ⟨⟨hfirst, hsecond, hlt⟩, ⟨hcancels, henters, hthird, hnew⟩, hstage, hnone⟩

end System

end Jukebox
