import Jukebox.Proofs.Playback.Effect

/-!
# The order that every run keeps

Cascades and stops are numbered by tokens, cascades by identifiers and starts by serials, and
of all operations only one is inside the gate.  `System.Ordered` ties the four together: it
holds at the start and is kept by every move, so it holds of every system that a run leads to.
-/

namespace Jukebox

namespace System

/-- What holds of the gate, the cascades and the serials in every system that a run leads to. -/
structure Ordered (s : System) : Prop where
  /-- Numbers that have not been given away belong to no operation. -/
  fresh : ∀ {op}, s.fresh ≤ op → s.stage? op = none
  /-- Only one operation is inside the gate. -/
  gate : ∀ {op stage}, s.stage? op = some stage → stage.isInside = true →
    s.controller.gateHeldBy = some op
  /-- Only the newest cascade can have the newest token. -/
  cascade : ∀ {op stage cascade}, s.stage? op = some stage → stage.cascade? = some cascade →
    cascade.id ≤ s.controller.state.cascadeCount ∧ cascade.token ≤ s.controller.token ∧
      (cascade.token = s.controller.token → cascade.id = s.controller.state.cascadeCount)
  /-- A cascade that the end of a track has opened came after the start of that track. -/
  ended : ∀ {op stage cascade n}, s.stage? op = some stage → stage.cascade? = some cascade →
    cascade.ended = some n → n ∈ s.starts
  current : ∀ {n}, s.controller.state.serial? = some n → n ∈ s.starts
  starts_le : ∀ {n}, n ∈ s.starts → n ≤ s.controller.serial
  sorted : s.starts.Pairwise (· < ·)
  /-- The serial of the next start is the latest, and has not been used. -/
  install : ∀ {op stage serial}, s.stage? op = some stage → stage.start? = some serial →
    serial = s.controller.serial ∧ ∀ n ∈ s.starts, n < serial
  displaced : ∀ {op stage r}, s.stage? op = some stage → stage.displaced? = some r →
    r.serial ∈ s.starts ∧ r.serial < s.controller.serial
  /-- While a start is open, no record is current but the one that it made. -/
  launched : ∀ {op stage n}, s.stage? op = some stage → stage.isLaunched = true →
    s.controller.state.serial? = some n → n = s.controller.serial

theorem ordered_start (account : Account) (self : Nat) (words : RandomWords) :
    (start (Controller.start account self words)).Ordered where
  fresh := fun _ => rfl
  gate := fun h => by simp [start, stage?] at h
  cascade := fun h => by simp [start, stage?] at h
  ended := fun h => by simp [start, stage?] at h
  current := fun h => by simp [start, Controller.start, PlaybackState.start,
    PlaybackState.serial?] at h
  starts_le := fun h => by simp [start, starts, events] at h
  sorted := .nil
  install := fun h => by simp [start, stage?] at h
  displaced := fun h => by simp [start, stage?] at h
  launched := fun h => by simp [start, stage?] at h

variable {s t : System} {op : Nat} {signal : Signal} {stage next : Stage}
  {told : List PlaybackEvent}

@[simp] theorem starts_arrive (s : System) (request : Request) :
    (s.arrive request).starts = s.starts := rfl

theorem Advances.starts (h : s.Advances t op signal stage next told) :
    t.starts = s.starts ++ stage.start?.toList := by
  simp only [System.starts, h.events, List.filterMap_append,
    Controller.starts_of_step? h.step]

theorem Advances.transition (h : s.Advances t op signal stage next told) :
    s.controller.Transition op stage signal t.controller next :=
  Controller.transition_of_step? h.step

/-- What waits for the lock goes on when it is free. -/
theorem Advances.signal_of_lock (a : s.Advances t op signal stage next told)
    (hneed : stage.need = .lock) : signal = .go := by
  have hstep := a.step
  cases signal with
  | go => rfl
  | _ => simp [Controller.step?, hneed] at hstep

theorem Ordered.stage?_arrive (h : s.Ordered) (request : Request) (op : Nat) :
    (s.arrive request).stage? op =
      if op = s.fresh then some (.begin request) else s.stage? op :=
  System.stage?_arrive (h.fresh (Nat.le_refl _)) request op

theorem Ordered.stage?_arrive_cases (h : s.Ordered) {request : Request}
    (hstage : (s.arrive request).stage? op = some stage) :
    op = s.fresh ∧ stage = .begin request ∨ op ≠ s.fresh ∧ s.stage? op = some stage := by
  rw [h.stage?_arrive] at hstage
  by_cases hop : op = s.fresh
  · rw [if_pos hop] at hstage
    exact .inl ⟨hop, (Option.some.inj hstage).symm⟩
  · rw [if_neg hop] at hstage
    exact .inr ⟨hop, hstage⟩

theorem Ordered.lt_fresh (h : s.Ordered) (hstage : s.stage? op = some stage) : op < s.fresh := by
  by_contra hle
  rw [h.fresh (Nat.le_of_not_lt hle)] at hstage
  cases hstage

/-- What comes in when nothing runs is the only operation. -/
theorem Ordered.stage?_arrive_of_quiet (h : s.Ordered) (hquiet : s.Quiet) {request : Request}
    (hstage : (s.arrive request).stage? op = some stage) :
    op = s.fresh ∧ stage = .begin request := by
  rcases h.stage?_arrive_cases hstage with hnew | ⟨-, hold⟩
  · exact hnew
  · rw [hquiet.stage?] at hold
    cases hold

theorem Ordered.stage?_arrive_of_some (h : s.Ordered) (hstage : s.stage? op = some stage)
    (request : Request) : (s.arrive request).stage? op = some stage := by
  rw [h.stage?_arrive, if_neg ?_]
  · exact hstage
  · rintro rfl
    rw [h.fresh (Nat.le_refl _)] at hstage
    cases hstage

/-- An operation that has a cascade was there before the request came in. -/
theorem Ordered.stage?_of_cascade? (h : s.Ordered) {request : Request} {cascade : Cascade}
    (hstage : (s.arrive request).stage? op = some stage)
    (hcascade : stage.cascade? = some cascade) : s.stage? op = some stage := by
  rcases h.stage?_arrive_cases hstage with ⟨-, rfl⟩ | ⟨-, hold⟩
  · cases hcascade
  · exact hold

/-- An operation that has just come in is at no stage that the order speaks of. -/
theorem Ordered.arrive (h : s.Ordered) (request : Request) : (s.arrive request).Ordered := by
  have hold : ∀ {op stage}, (s.arrive request).stage? op = some stage →
      stage = .begin request ∨ s.stage? op = some stage := by
    intro op stage hstage
    exact (h.stage?_arrive_cases hstage).imp And.right And.right
  exact {
    fresh := by
      intro op hop
      have hop' : s.fresh + 1 ≤ op := hop
      rw [h.stage?_arrive, if_neg (by omega)]
      exact h.fresh (by omega)
    gate := by
      intro op stage hop hinside
      rcases hold hop with rfl | hop
      · simp [Stage.isInside] at hinside
      · exact h.gate hop hinside
    cascade := by
      intro op stage cascade hop hcascade
      exact h.cascade (h.stage?_of_cascade? hop hcascade) hcascade
    ended := by
      intro op stage cascade n hop hcascade hended
      exact h.ended (h.stage?_of_cascade? hop hcascade) hcascade hended
    current := h.current
    starts_le := h.starts_le
    sorted := h.sorted
    install := by
      intro op stage serial hop hstart
      rcases hold hop with rfl | hop
      · simp [Stage.start?] at hstart
      · exact h.install hop hstart
    displaced := by
      intro op stage r hop hdisplaced
      rcases hold hop with rfl | hop
      · simp [Stage.displaced?] at hdisplaced
      · exact h.displaced hop hdisplaced
    launched := by
      intro op stage n hop hlaunched
      rcases hold hop with rfl | hop
      · simp [Stage.isLaunched] at hlaunched
      · exact h.launched hop hlaunched }

/-- Two operations inside the gate are the same. -/
theorem Ordered.alone {op' : Nat} {stage' : Stage} (h : s.Ordered)
    (hstage : s.stage? op = some stage) (hinside : stage.isInside = true)
    (hstage' : s.stage? op' = some stage') (hinside' : stage'.isInside = true) : op' = op :=
  Option.some.inj ((h.gate hstage' hinside').symm.trans (h.gate hstage hinside))

theorem Ordered.not_isInside {op' : Nat} {stage' : Stage} (h : s.Ordered)
    (hstage : s.stage? op = some stage) (hne : op' ≠ op)
    (hstage' : s.stage? op' = some stage') (hinside' : stage'.isInside = true) :
    stage.isInside = false := by
  cases hinside : stage.isInside with
  | false => rfl
  | true => exact absurd (h.alone hstage hinside hstage' hinside') hne

theorem Advances.serial_le (a : s.Advances t op signal stage next told) :
    s.controller.serial ≤ t.controller.serial := by
  rcases a.transition.numbersStart with ⟨hserial, -⟩ | ⟨hserial, -⟩ <;> omega

theorem Advances.token_le (a : s.Advances t op signal stage next told) :
    s.controller.token ≤ t.controller.token := by
  cases a.transition.numbering with
  | keeps htoken => exact Nat.le_of_eq htoken.symm
  | opens _ _ htoken => omega
  | cancels htoken => omega
  | closes _ hd => exact Nat.le_of_eq (congrArg Controller.token hd).symm

theorem Advances.cascadeCount_le (a : s.Advances t op signal stage next told) :
    s.controller.state.cascadeCount ≤ t.controller.state.cascadeCount := by
  cases a.transition.numbering with
  | keeps _ hcount => exact Nat.le_of_eq hcount.symm
  | opens _ _ _ hcount => omega
  | cancels _ hcount => exact Nat.le_of_eq hcount.symm
  | closes _ hd =>
    rw [hd]
    exact Nat.le_of_eq (Controller.closeCascade_count _ _).symm

/-- Nobody gets a new serial while somebody is inside the gate. -/
theorem Advances.serial_eq (a : s.Advances t op signal stage next told) {op' : Nat}
    (hgate : s.controller.gateHeldBy = some op') : t.controller.serial = s.controller.serial := by
  rcases a.transition.numbersStart with ⟨hserial, -⟩ | ⟨-, -, -, hnone, -⟩
  · exact hserial
  · rw [hgate] at hnone
    cases hnone

theorem Advances.mem_starts (a : s.Advances t op signal stage next told) {n : Nat}
    (h : n ∈ s.starts) : n ∈ t.starts := by
  rw [a.starts]
  exact List.mem_append_left _ h

/-- An operation outside the gate starts nothing. -/
theorem Advances.starts_eq (a : s.Advances t op signal stage next told)
    (h : stage.isInside = false) : t.starts = s.starts := by
  have hstart : stage.start? = none := by
    cases hstart : stage.start? with
    | none => rfl
    | some serial => simp [Stage.isInside_of_start? hstart] at h
  simp [a.starts, hstart]

/-! ### Every advance keeps the order -/

theorem Ordered.gate_advance (h : s.Ordered) (a : s.Advances t op signal stage next told)
    {op' : Nat} {stage' : Stage} (hstage' : t.stage? op' = some stage')
    (hinside' : stage'.isInside = true) : t.controller.gateHeldBy = some op' := by
  rcases a.stage?_cases hstage' with ⟨rfl, rfl⟩ | ⟨hne, hold⟩
  · rcases a.transition.gate with ⟨hinside, hheld⟩ | ⟨-, -, -, hheld⟩ | ⟨-, hout, -⟩
    · rw [hheld]
      exact h.gate a.before (hinside.symm.trans hinside')
    · exact hheld
    · rw [hout] at hinside'
      cases hinside'
  · have hheld' := h.gate hold hinside'
    have hout := h.not_isInside a.before hne hold hinside'
    rcases a.transition.gate with ⟨-, hheld⟩ | ⟨-, -, hnone, -⟩ | ⟨hinside, -⟩
    · rw [hheld, hheld']
    · rw [hheld'] at hnone
      cases hnone
    · rw [hout] at hinside
      cases hinside

theorem Ordered.cascade_advance (h : s.Ordered) (a : s.Advances t op signal stage next told)
    {op' : Nat} {stage' : Stage} {cascade : Cascade} (hstage' : t.stage? op' = some stage')
    (hcascade : stage'.cascade? = some cascade) :
    cascade.id ≤ t.controller.state.cascadeCount ∧ cascade.token ≤ t.controller.token ∧
      (cascade.token = t.controller.token →
        cascade.id = t.controller.state.cascadeCount) := by
  -- A cascade that was there before can only have fallen behind.
  have hold : ∀ {op' stage'}, s.stage? op' = some stage' → stage'.cascade? = some cascade →
      t.controller.state.cascadeCount = s.controller.state.cascadeCount ∧
        t.controller.token = s.controller.token ∨
      s.controller.state.cascadeCount ≤ t.controller.state.cascadeCount ∧
        s.controller.token < t.controller.token →
      cascade.id ≤ t.controller.state.cascadeCount ∧ cascade.token ≤ t.controller.token ∧
        (cascade.token = t.controller.token →
          cascade.id = t.controller.state.cascadeCount) := by
    intro op' stage' hstage' hcascade hgrow
    obtain ⟨hid, htoken, hnewest⟩ := h.cascade hstage' hcascade
    rcases hgrow with ⟨hcount, htok⟩ | ⟨hcount, htok⟩
    · rw [hcount, htok]
      exact ⟨hid, htoken, hnewest⟩
    · exact ⟨by omega, by omega, fun heq => by omega⟩
  rcases a.stage?_cases hstage' with ⟨rfl, rfl⟩ | ⟨-, hstage'⟩
  · cases a.transition.numbering with
    | keeps htoken hcount hnext =>
      exact hold a.before (hnext ▸ hcascade) (.inl ⟨hcount, htoken⟩)
    | opens ended _ htoken hcount _ hnext =>
      rw [hnext] at hcascade
      cases hcascade
      exact ⟨Nat.le_of_eq hcount.symm, Nat.le_of_eq htoken.symm, fun _ => hcount.symm⟩
    | cancels _ _ _ hnext =>
      rw [hnext] at hcascade
      cases hcascade
    | closes _ _ hnext =>
      subst hnext
      cases hcascade
  · refine hold hstage' hcascade ?_
    cases a.transition.numbering with
    | keeps htoken hcount => exact .inl ⟨hcount, htoken⟩
    | opens _ _ htoken hcount => exact .inr ⟨by omega, by omega⟩
    | cancels htoken hcount => exact .inr ⟨by omega, by omega⟩
    | closes _ hd =>
      rw [hd]
      exact .inl ⟨Controller.closeCascade_count _ _, rfl⟩

theorem Ordered.ended_advance (h : s.Ordered) (a : s.Advances t op signal stage next told)
    {op' : Nat} {stage' : Stage} {cascade : Cascade} {n : Nat}
    (hstage' : t.stage? op' = some stage') (hcascade : stage'.cascade? = some cascade)
    (hended : cascade.ended = some n) : n ∈ t.starts := by
  rcases a.stage?_cases hstage' with ⟨rfl, rfl⟩ | ⟨-, hstage'⟩
  · cases a.transition.numbering with
    | keeps _ _ hnext => exact a.mem_starts (h.ended a.before (hnext ▸ hcascade) hended)
    | opens ended hcurrent _ _ _ hnext =>
      rw [hnext] at hcascade
      cases hcascade
      obtain rfl : ended = some n := hended
      rcases hcurrent with hnone | hcurrent
      · cases hnone
      · exact a.mem_starts (h.current hcurrent.symm)
    | cancels _ _ _ hnext =>
      rw [hnext] at hcascade
      cases hcascade
    | closes _ _ hnext =>
      subst hnext
      cases hcascade
  · exact a.mem_starts (h.ended hstage' hcascade hended)

theorem Ordered.current_advance (h : s.Ordered) (a : s.Advances t op signal stage next told)
    {n : Nat} (hcurrent : t.controller.state.serial? = some n) : n ∈ t.starts := by
  cases a.transition.recordMove with
  | keeps hrecord => exact a.mem_starts (h.current (hrecord ▸ hcurrent))
  | retires hrecord =>
    rw [hrecord] at hcurrent
    cases hcurrent
  | installs hstage hrecord =>
    obtain rfl := Option.some.inj (hrecord.symm.trans hcurrent)
    simp [a.starts, hstage]
  | rollsBack hstage hrecord =>
    obtain ⟨r, hr, rfl⟩ := Option.map_eq_some_iff.mp hcurrent
    subst hstage
    exact a.mem_starts (h.displaced a.before (hrecord.symm.trans hr)).1
  | commits _ hrecord => exact a.mem_starts (h.current (hrecord ▸ hcurrent))

theorem Ordered.starts_le_advance (h : s.Ordered) (a : s.Advances t op signal stage next told)
    {n : Nat} (hn : n ∈ t.starts) : n ≤ t.controller.serial := by
  have hserial := a.serial_le
  rw [a.starts, List.mem_append, Option.mem_toList] at hn
  rcases hn with hn | hn
  · exact Nat.le_trans (h.starts_le hn) hserial
  · rw [(h.install a.before hn).1]
    exact hserial

theorem Ordered.sorted_advance (h : s.Ordered) (a : s.Advances t op signal stage next told) :
    t.starts.Pairwise (· < ·) := by
  rw [a.starts, List.pairwise_append]
  refine ⟨h.sorted, ?_, ?_⟩
  · cases stage.start? <;> simp
  · intro n hn serial hserial
    rw [Option.mem_toList] at hserial
    exact (h.install a.before hserial).2 n hn

theorem Ordered.install_advance (h : s.Ordered) (a : s.Advances t op signal stage next told)
    {op' : Nat} {stage' : Stage} {serial : Nat} (hstage' : t.stage? op' = some stage')
    (hstart : stage'.start? = some serial) :
    serial = t.controller.serial ∧ ∀ n ∈ t.starts, n < serial := by
  rcases a.stage?_cases hstage' with ⟨rfl, rfl⟩ | ⟨hne, hold⟩
  · rcases a.transition.numbersStart with ⟨-, hnone⟩ | ⟨hserial, hnext, hstage, -⟩
    · rw [hnone] at hstart
      cases hstart
    · obtain rfl := Option.some.inj (hnext.symm.trans hstart)
      refine ⟨hserial.symm, ?_⟩
      intro n hn
      rw [a.starts, hstage, Option.toList_none, List.append_nil] at hn
      exact Nat.lt_succ_of_le (h.starts_le hn)
  · have hinside := Stage.isInside_of_start? hstart
    obtain ⟨hserial, hlt⟩ := h.install hold hstart
    rw [a.starts_eq (h.not_isInside a.before hne hold hinside),
      a.serial_eq (h.gate hold hinside)]
    exact ⟨hserial, hlt⟩

theorem Ordered.displaced_advance (h : s.Ordered) (a : s.Advances t op signal stage next told)
    {op' : Nat} {stage' : Stage} {r : PlaybackRecord} (hstage' : t.stage? op' = some stage')
    (hdisplaced : stage'.displaced? = some r) :
    r.serial ∈ t.starts ∧ r.serial < t.controller.serial := by
  have hold : ∀ {op' stage'}, s.stage? op' = some stage' → stage'.displaced? = some r →
      r.serial ∈ t.starts ∧ r.serial < t.controller.serial := by
    intro op' stage' hstage' hdisplaced
    obtain ⟨hmem, hlt⟩ := h.displaced hstage' hdisplaced
    exact ⟨a.mem_starts hmem, Nat.lt_of_lt_of_le hlt a.serial_le⟩
  rcases a.stage?_cases hstage' with ⟨rfl, rfl⟩ | ⟨-, hstage'⟩
  · cases a.transition.recordMove with
    | keeps _ hnext => exact hold a.before (hnext ▸ hdisplaced)
    | installs hstage _ hnext =>
      have hcurrent : s.controller.state.serial? = some r.serial :=
        Option.map_eq_some_iff.mpr ⟨r, hnext.symm.trans hdisplaced, rfl⟩
      have hmem := h.current hcurrent
      obtain ⟨hserial, hlt⟩ := h.install a.before hstage
      exact ⟨a.mem_starts hmem, Nat.lt_of_lt_of_le (hserial ▸ hlt _ hmem) a.serial_le⟩
    | retires _ hnext => rw [hnext] at hdisplaced; cases hdisplaced
    | rollsBack _ _ hnext => rw [hnext] at hdisplaced; cases hdisplaced
    | commits _ _ hnext => rw [hnext] at hdisplaced; cases hdisplaced
  · exact hold hstage' hdisplaced

theorem Ordered.launched_advance (h : s.Ordered) (a : s.Advances t op signal stage next told)
    {op' : Nat} {stage' : Stage} {n : Nat} (hstage' : t.stage? op' = some stage')
    (hlaunched : stage'.isLaunched = true) (hcurrent : t.controller.state.serial? = some n) :
    n = t.controller.serial := by
  rcases a.stage?_cases hstage' with ⟨rfl, rfl⟩ | ⟨hne, hold⟩
  · cases a.transition.recordMove with
    | keeps hrecord _ hnext =>
      have hbefore : stage.isLaunched = true := hnext ▸ hlaunched
      have hheld := h.gate a.before (Stage.isInside_of_isLaunched hbefore)
      rw [a.serial_eq hheld]
      exact h.launched a.before hbefore (hrecord ▸ hcurrent)
    | installs hstage hrecord =>
      obtain rfl := Option.some.inj (hrecord.symm.trans hcurrent)
      rw [a.serial_eq (h.gate a.before (Stage.isInside_of_start? hstage))]
      exact (h.install a.before hstage).1
    | retires _ _ hnext => rw [hnext] at hlaunched; cases hlaunched
    | rollsBack _ _ _ hnext => rw [hnext] at hlaunched; cases hlaunched
    | commits _ _ _ hnext => rw [hnext] at hlaunched; cases hlaunched
  · have hinside := Stage.isInside_of_isLaunched hlaunched
    have hout := h.not_isInside a.before hne hold hinside
    rw [a.serial_eq (h.gate hold hinside)]
    cases a.transition.recordMove with
    | keeps hrecord => exact h.launched hold hlaunched (hrecord ▸ hcurrent)
    | retires hrecord => rw [hrecord] at hcurrent; cases hcurrent
    | installs hstage => simp [Stage.isInside_of_start? hstage] at hout
    | rollsBack hstage => subst hstage; cases hout
    | commits hstage => simp [Stage.isInside_of_isLaunched hstage] at hout

theorem Ordered.advance (h : s.Ordered) (a : s.Advances t op signal stage next told) :
    t.Ordered where
  fresh := by
    intro op' hop'
    rw [a.fresh] at hop'
    have hne : op' ≠ op := by
      rintro rfl
      simpa [h.fresh hop'] using a.before
    rw [a.stage?_of_ne hne]
    exact h.fresh hop'
  gate := h.gate_advance a
  cascade := h.cascade_advance a
  ended := h.ended_advance a
  current := h.current_advance a
  starts_le := h.starts_le_advance a
  sorted := h.sorted_advance a
  install := h.install_advance a
  displaced := h.displaced_advance a
  launched := h.launched_advance a

theorem Ordered.move {m : Move} (h : s.Ordered) (hmove : s.move? m = some t) : t.Ordered := by
  cases m with
  | arrive request =>
    obtain rfl : s.arrive request = t := by simpa [move?] using hmove
    exact h.arrive request
  | advance op signal =>
    obtain ⟨stage, next, told, a⟩ := advances_of_advance? hmove
    exact h.advance a

/-- The order holds all along every run. -/
theorem Ordered.run {allowed : System → Move → Prop} {moves : List Move} (h : s.Ordered)
    (run : s.Run allowed moves t) : t.Ordered :=
  run.invariant h fun hv _ hmove => hv.move hmove

/-- What every request that comes in keeps, and every step of an operation, holds all along a
run. -/
theorem Ordered.invariant {allowed : System → Move → Prop} {moves : List Move}
    {P : System → Prop} (ho : s.Ordered) (h : P s) (run : s.Run allowed moves t)
    (harrive : ∀ {v : System} {request : Request}, v.Ordered → P v →
      allowed v (.arrive request) → P (v.arrive request))
    (hadvance : ∀ {v w : System} {op : Nat} {signal : Signal} {stage next : Stage}
      {told : List PlaybackEvent}, v.Ordered → P v → allowed v (.advance op signal) →
      v.Advances w op signal stage next told → P w) : P t := by
  have hall : t.Ordered ∧ P t := by
    refine run.invariant (P := fun v => v.Ordered ∧ P v) ⟨ho, h⟩ ?_
    rintro v w m ⟨ho, h⟩ hallowed hmove
    refine ⟨ho.move hmove, ?_⟩
    cases m with
    | arrive request =>
      obtain rfl : v.arrive request = w := by simpa [move?] using hmove
      exact harrive ho h hallowed
    | advance op signal =>
      obtain ⟨stage, next, told, a⟩ := advances_of_advance? hmove
      exact hadvance ho h hallowed a
  exact hall.2

/-- What holds of the stage of an operation, and is kept by its own steps, holds of every stage
that it comes to. -/
theorem Ordered.stage_of_run {allowed : System → Move → Prop} {moves : List Move}
    {P : Stage → Prop} (ho : s.Ordered) (hop : op < s.fresh)
    (h : ∀ stage, s.stage? op = some stage → P stage)
    (hstep : ∀ {c d : Controller} {stage next : Stage} {signal : Signal}, P stage →
      c.Transition op stage signal d next → P next ∨ ∃ answer, next = .finished answer)
    (run : s.Run allowed moves t) (hstage : t.stage? op = some stage) : P stage := by
  have hall : op < t.fresh ∧ ∀ stage, t.stage? op = some stage → P stage := by
    refine ho.invariant
      (P := fun v => op < v.fresh ∧ ∀ stage, v.stage? op = some stage → P stage)
      ⟨hop, h⟩ run ?_ ?_
    · rintro v request ho ⟨hlt, h⟩ -
      refine ⟨Nat.lt_succ_of_lt hlt, ?_⟩
      intro other hother
      rcases ho.stage?_arrive_cases hother with ⟨rfl, -⟩ | ⟨-, hold⟩
      · exact absurd hlt (Nat.lt_irrefl _)
      · exact h other hold
    · rintro v w op' signal old next told - ⟨hlt, h⟩ - a
      rw [a.fresh]
      refine ⟨hlt, ?_⟩
      intro other hother
      rcases a.stage?_cases hother with ⟨rfl, rfl⟩ | ⟨-, hold⟩
      · rcases hstep (h old a.before) a.transition with hnext | ⟨answer, rfl⟩
        · exact hnext
        · rw [a.stage?_of_finished rfl] at hother
          cases hother
      · exact h other hold
  exact hall.2 stage hstage

theorem Ordered.fresh_le_of_run {allowed : System → Move → Prop} {moves : List Move}
    (ho : s.Ordered) (run : s.Run allowed moves t) : s.fresh ≤ t.fresh :=
  ho.invariant (P := fun v => s.fresh ≤ v.fresh) (Nat.le_refl _) run
    (fun _ hle _ => Nat.le_succ_of_le hle) fun _ hle _ a => a.fresh ▸ hle

theorem Ordered.token_le_of_run {allowed : System → Move → Prop} {moves : List Move}
    (ho : s.Ordered) (run : s.Run allowed moves t) : s.controller.token ≤ t.controller.token :=
  ho.invariant (P := fun v => s.controller.token ≤ v.controller.token) (Nat.le_refl _) run
    (fun _ hle _ => hle) fun _ hle _ a => Nat.le_trans hle a.token_le

/-- An operation that has left does not come back. -/
theorem Ordered.exists_stage_of_run {allowed : System → Move → Prop} {moves : List Move}
    (ho : s.Ordered) (hop : op < s.fresh) (run : s.Run allowed moves t)
    (hstage : t.stage? op = some stage) : ∃ old, s.stage? op = some old := by
  cases hgone : s.stage? op with
  | some old => exact ⟨old, rfl⟩
  | none =>
    have hnever : False := ho.stage_of_run (P := fun _ => False) hop
      (fun old hold => by cases hgone.symm.trans hold) (fun h _ => h.elim) run hstage
    exact hnever.elim

theorem Ordered.mem_starts {allowed : System → Move → Prop} {moves : List Move} {n : Nat}
    (ho : s.Ordered) (h : n ∈ s.starts) (run : s.Run allowed moves t) : n ∈ t.starts :=
  ho.invariant (P := fun v => n ∈ v.starts) h run (fun _ h _ => h) fun _ h _ a => a.mem_starts h

end System

end Jukebox
