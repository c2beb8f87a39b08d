import Jukebox.Proofs.Playback.Playing

/-!
# When the queue is left waiting

Tracks are added and played, their ends are reported, and the resolver and the player accept
every track.  On such a run the newest cascade is searching, or a track is current that no
cascade is about to retire, or the newest cascade has found the queue empty.  In the last case
whatever comes into the queue afterwards stays there: a track that an older cascade gives back,
or one that is added while the track that has ended is still the current one.
`System.left_waiting_iff` says that nothing else leaves tracks in the queue while none is
current.
-/

namespace Jukebox

namespace System

variable {s t u : System} {op : Nat} {signal : Signal} {stage next : Stage}
  {told : List PlaybackEvent} {moves : List Move} {m : Move}

/-- Requests add tracks, play, or report the end of a track, and whatever is asked of the
resolver and the player is granted. -/
def accepting (s : System) : Move → Prop
  | .arrive request => request.plays = true
  | .advance op signal => ∀ stage, s.stage? op = some stage → stage.Accepts signal

/-- The number of the newest cascade. -/
def newest (s : System) : Nat := s.controller.state.cascadeCount

/-- After a step an operation has the cascade that it had, or one that is newer than all. -/
theorem Advances.cascade_cases (a : s.Advances t op signal stage next told) {op' : Nat}
    {stage' : Stage} {cascade : Cascade} (hstage' : t.stage? op' = some stage')
    (hcascade : stage'.cascade? = some cascade) :
    (∃ old, s.stage? op' = some old ∧ old.cascade? = some cascade) ∨
      op' = op ∧ t.newest = s.newest + 1 ∧ cascade.id = t.newest ∧
        cascade.token = t.controller.token := by
  rcases a.stage?_cases hstage' with ⟨rfl, rfl⟩ | ⟨-, hold⟩
  · cases a.transition.numbering with
    | keeps _ _ hnext => exact .inl ⟨stage, a.before, hnext ▸ hcascade⟩
    | opens _ _ htoken hcount _ hnext =>
      obtain rfl := Option.some.inj (hnext.symm.trans hcascade)
      exact .inr ⟨rfl, hcount, hcount.symm, htoken.symm⟩
    | cancels _ _ _ hnext => rw [hnext] at hcascade; cases hcascade
    | closes _ _ hnext => subst hnext; cases hcascade
  · exact .inl ⟨stage', hold, hcascade⟩

/-- Each cascade belongs to one operation. -/
def Apart (s : System) : Prop :=
  ∀ ⦃op op' stage stage' cascade cascade'⦄, s.stage? op = some stage →
    s.stage? op' = some stage' → stage.cascade? = some cascade →
    stage'.cascade? = some cascade' → cascade.id = cascade'.id → op = op'

theorem Apart.arrive (h : s.Apart) (ho : s.Ordered) (request : Request) :
    (s.arrive request).Apart := by
  intro op op' stage stage' cascade cascade' hstage hstage' hcascade hcascade' heq
  have hold := ho.stage?_of_cascade? hstage hcascade
  have hold' := ho.stage?_of_cascade? hstage' hcascade'
  exact h hold hold' hcascade hcascade' heq

theorem Apart.advance (h : s.Apart) (ho : s.Ordered)
    (a : s.Advances t op signal stage next told) : t.Apart := by
  intro op' op'' stage' stage'' cascade cascade' hstage' hstage'' hcascade hcascade' heq
  have hle : ∀ {op stage cascade}, s.stage? op = some stage → stage.cascade? = some cascade →
      cascade.id ≤ s.newest := fun hstage hcascade => (ho.cascade hstage hcascade).1
  rcases a.cascade_cases hstage' hcascade with ⟨old, hold, hc⟩ | ⟨hop, hnew, hid, -⟩
  · rcases a.cascade_cases hstage'' hcascade' with ⟨old', hold', hc'⟩ | ⟨-, hnew, hid', -⟩
    · exact h hold hold' hc hc' heq
    · have := hle hold hc
      omega
  · rcases a.cascade_cases hstage'' hcascade' with ⟨old', hold', hc'⟩ | ⟨hop', -⟩
    · have := hle hold' hc'
      omega
    · exact hop.trans hop'.symm

/-- Cascades are numbered by their tokens, and each belongs to one operation. -/
structure Numbered (s : System) : Prop where
  token : s.controller.token = s.newest
  cascade : ∀ {op stage cascade}, s.stage? op = some stage → stage.cascade? = some cascade →
    cascade.token = cascade.id ∧ 0 < cascade.id
  alone : ∀ {op op' stage stage' cascade cascade'}, s.stage? op = some stage →
    s.stage? op' = some stage' → stage.cascade? = some cascade →
    stage'.cascade? = some cascade' → cascade.id = cascade'.id → op = op'

theorem Numbered.apart (h : s.Numbered) : s.Apart :=
  fun _ _ _ _ _ _ hstage hstage' => h.alone hstage hstage'

theorem numbered_start (account : Account) (self : Nat) (words : RandomWords) :
    (start (Controller.start account self words)).Numbered where
  token := rfl
  cascade := fun h => by simp [start, stage?] at h
  alone := fun h => by simp [start, stage?] at h

theorem Numbered.arrive (h : s.Numbered) (ho : s.Ordered) (request : Request) :
    (s.arrive request).Numbered where
  token := h.token
  cascade := by
    intro op stage cascade hstage hcascade
    exact h.cascade (ho.stage?_of_cascade? hstage hcascade) hcascade
  alone := fun hstage => h.apart.arrive ho request hstage

theorem Numbered.advance (h : s.Numbered) (ho : s.Ordered)
    (a : s.Advances t op signal stage next told)
    (hnext : ∀ detaching, next ≠ .stopAdmission detaching) : t.Numbered := by
  have htoken : t.controller.token = t.newest := by
    have hbefore : s.controller.token = s.controller.state.cascadeCount := h.token
    show t.controller.token = t.controller.state.cascadeCount
    cases a.transition.numbering with
    | keeps htoken hcount => rw [htoken, hcount, hbefore]
    | opens _ _ htoken hcount => rw [htoken, hcount, hbefore]
    | cancels _ _ _ _ hstops =>
      obtain ⟨detaching, hstops⟩ := hstops
      exact absurd hstops (hnext detaching)
    | closes _ hd =>
      rw [hd]
      exact hbefore.trans (Controller.closeCascade_count _ _).symm
  refine ⟨htoken, ?_, ?_⟩
  · intro op' stage' cascade hstage' hcascade
    rcases a.cascade_cases hstage' hcascade with ⟨old, hold, hcascade⟩ | ⟨-, hnew, hid, htok⟩
    · exact h.cascade hold hcascade
    · exact ⟨by rw [htok, hid, htoken], by omega⟩
  · intro op' op'' stage' stage'' cascade cascade' hstage'
    exact h.apart.advance ho a hstage'

/-- What holds on every run on which tracks are only added and played. -/
structure Tame (s : System) : Prop extends s.Numbered where
  stage : ∀ {op stage}, s.stage? op = some stage → stage.Plays s.controller.state.generation

theorem tame_start (account : Account) (self : Nat) (words : RandomWords) :
    (start (Controller.start account self words)).Tame :=
  ⟨numbered_start account self words, fun h => by simp [start, stage?] at h⟩

theorem Tame.arrive (h : s.Tame) (ho : s.Ordered) {request : Request}
    (hplays : request.plays = true) : (s.arrive request).Tame := by
  refine ⟨h.toNumbered.arrive ho request, ?_⟩
  intro op stage hstage
  rcases ho.stage?_arrive_cases hstage with ⟨-, rfl⟩ | ⟨-, hold⟩
  · exact hplays
  · exact h.stage hold

theorem Tame.advance (h : s.Tame) (ho : s.Ordered) (a : s.Advances t op signal stage next told)
    (haccepts : stage.Accepts signal) : t.Tame := by
  obtain ⟨hgeneration, hnext⟩ := a.transition.plays (h.stage a.before) haccepts
  refine ⟨h.toNumbered.advance ho a ?_, ?_⟩
  · rintro detaching rfl
    rcases hnext with hnext | ⟨answer, hnext⟩
    · exact hnext
    · cases hnext
  · intro op' stage' hstage'
    rw [hgeneration]
    rcases a.stage?_cases hstage' with ⟨rfl, rfl⟩ | ⟨-, hold⟩
    · rcases hnext with hnext | ⟨answer, rfl⟩
      · exact hnext
      · rw [a.stage?_of_finished rfl] at hstage'
        cases hstage'
    · exact h.stage hold

theorem Tame.run (h : s.Tame) (ho : s.Ordered) (run : s.Run accepting moves t) : t.Tame := by
  refine ho.invariant h run ?_ ?_
  · intro v request ho h hplays
    exact h.arrive ho hplays
  · intro v w op signal stage next told ho h haccepts a
    exact h.advance ho a (haccepts stage a.before)

/-! ## Where the newest cascade is -/

/-- Nothing was played and nothing was added. -/
def Untouched (s : System) : Prop :=
  s.newest = 0 ∧ s.controller.state.record = none ∧ s.controller.state.cascade = none ∧
    s.controller.state.queue.items = []

/-- The newest cascade may still find a track and start it. -/
def Searching (s : System) : Prop :=
  ∃ op stage cascade, s.stage? op = some stage ∧ stage.isSearching = true ∧
    stage.cascade? = some cascade ∧ cascade.id = s.newest

/-- A track is current, and no cascade in flight was opened by its end. -/
def Sounding (s : System) : Prop :=
  ∃ n, s.controller.state.serial? = some n ∧
    ∀ ⦃op stage cascade⦄, s.stage? op = some stage → stage.cascade? = some cascade →
      cascade.ended ≠ some n

/-- The newest cascade is about to end, or has ended. -/
def Settling (s : System) : Prop :=
  ∀ ⦃op stage cascade⦄, s.stage? op = some stage → stage.cascade? = some cascade →
    cascade.id = s.newest → stage.isSettling = true

/-- An operation has a track that it will give back. -/
def Owing (s : System) : Prop :=
  ∃ op stage, s.stage? op = some stage ∧ stage.Owes s.controller.token

/-- A track is current, or one is in the queue, or will come back to it. -/
def Waiting (s : System) : Prop :=
  s.Sounding ∨ s.controller.state.queue.items ≠ [] ∨ s.Owing

/-- The newest cascade finds the queue empty in this step of its operation. -/
def FindsNothing (s : System) (op n : Nat) : Prop :=
  ∃ search, s.stage? op = some (.take search) ∧ search.cascade.id = n ∧
    s.controller.state.queue.items = []

/-- The move puts a track into the queue. -/
def Refills (s : System) (m : Move) : Prop :=
  ∃ op signal stage, m = .advance op signal ∧ s.stage? op = some stage ∧ stage.Refills

/-! ## One step -/

/-- A step opens a cascade that is then the newest and searches, or all cascades stay. -/
theorem Advances.newest_cases (a : s.Advances t op signal stage next told) (h : s.Tame)
    (haccepts : stage.Accepts signal) :
    t.newest = s.newest ∧ t.controller.token = s.controller.token ∨
      t.newest = s.newest + 1 ∧ t.Searching := by
  rcases a.transition.opens_of_plays (h.stage a.before) haccepts with
    ⟨htoken, hcount⟩ | ⟨htoken, hcount, cascade, rfl⟩
  · exact .inl ⟨hcount, htoken⟩
  · have hstage : t.stage? op = some (.measure cascade) := a.stage?_self (by simp)
    refine .inr ⟨hcount, op, .measure cascade, cascade, hstage, rfl, rfl, ?_⟩
    rcases a.cascade_cases hstage rfl with ⟨old, hold, hcascade⟩ | ⟨-, -, hid, -⟩
    · obtain rfl := Option.some.inj (hold.symm.trans a.before)
      cases a.transition.numbering with
      | keeps _ hsame => omega
      | opens _ _ _ _ hnone => rw [hnone] at hcascade; cases hcascade
      | cancels _ _ hnone => rw [hnone] at hcascade; cases hcascade
      | closes _ _ hnext => cases hnext
    · exact hid

theorem Advances.cascade_of_newest_eq (a : s.Advances t op signal stage next told)
    (hsame : t.newest = s.newest) {op' : Nat} {stage' : Stage} {cascade : Cascade}
    (hstage' : t.stage? op' = some stage') (hcascade : stage'.cascade? = some cascade) :
    ∃ old, s.stage? op' = some old ∧ old.cascade? = some cascade := by
  rcases a.cascade_cases hstage' hcascade with hold | ⟨-, hnew, -⟩
  · exact hold
  · omega

/-- The cascade of an operation stays with it, unless this was its last step. -/
theorem Advances.cascade?_next (a : s.Advances t op signal stage next told) {cascade : Cascade}
    (hcascade : stage.cascade? = some cascade) :
    next.cascade? = some cascade ∨ stage.isSettling = true := by
  cases a.transition.numbering with
  | keeps _ _ hnext => exact .inl (hnext.trans hcascade)
  | opens _ _ _ _ hnone => rw [hnone] at hcascade; cases hcascade
  | cancels _ _ hnone => rw [hnone] at hcascade; cases hcascade
  | closes hclose => subst hclose; exact .inr rfl

theorem Untouched.advance (h : s.Untouched) (ht : s.Tame) (ho : s.Ordered)
    (a : s.Advances t op signal stage next told) (hsame : t.newest = s.newest) :
    t.Untouched := by
  obtain ⟨hnewest, hrecord, hcascade, hitems⟩ := h
  have hnone : stage.cascade? = none := by
    cases hstage : stage.cascade? with
    | none => rfl
    | some cascade =>
      have hle : cascade.id ≤ s.newest := (ho.cascade a.before hstage).1
      have hpos := (ht.cascade a.before hstage).2
      omega
  refine ⟨hsame.trans hnewest, ?_⟩
  rcases a.transition.untouched (ht.stage a.before) hnone hrecord hcascade hitems with
    hcount | hrest
  · have hcount' : t.newest = s.newest + 1 := hcount
    omega
  · exact hrest

/-- A track that starts is the current one, and its end was not reported yet. -/
theorem sounding_of_starts (ho : s.Ordered) (a : s.Advances t op signal stage next told)
    (hsame : t.newest = s.newest) {serial : Nat} (hstart : stage.start? = some serial)
    (hrecord : t.controller.state.serial? = some serial) : t.Sounding := by
  refine ⟨serial, hrecord, ?_⟩
  intro op' stage' cascade hstage' hcascade hended
  obtain ⟨old, hold, hcascade⟩ := a.cascade_of_newest_eq hsame hstage' hcascade
  exact Nat.lt_irrefl _ ((ho.install a.before hstart).2 serial (ho.ended hold hcascade hended))

theorem Sounding.advance (h : s.Sounding) (ho : s.Ordered)
    (a : s.Advances t op signal stage next told) (hkeeps : stage.withdraws = false)
    (hsame : t.newest = s.newest) : t.Sounding := by
  obtain ⟨n, hcurrent, hended⟩ := h
  cases a.transition.sounds hkeeps with
  | keeps hrecord =>
    refine ⟨n, hrecord.trans hcurrent, ?_⟩
    intro op' stage' cascade hstage' hcascade
    obtain ⟨old, hold, hcascade⟩ := a.cascade_of_newest_eq hsame hstage' hcascade
    exact hended hold hcascade
  | ends hcascade hend => exact absurd (hend.trans hcurrent) (hended a.before hcascade)
  | starts hstart hrecord => exact sounding_of_starts ho a hsame hstart hrecord

theorem Advances.items_eq_nil_or_refills (a : s.Advances t op signal stage next told)
    (h : s.Tame) (hitems : s.controller.state.queue.items = []) :
    t.controller.state.queue.items = [] ∨ s.Refills (.advance op signal) := by
  cases a.transition.fills (h.stage a.before) with
  | keeps hkeeps => exact .inl (hkeeps.mpr hitems)
  | refills hrefills => exact .inr ⟨op, signal, stage, rfl, a.before, hrefills⟩
  | takes _ _ _ hne => exact absurd hitems hne

/-- Once the newest cascade has found the queue empty it ends, and the queue is still empty. -/
theorem FindsNothing.advance (h : s.FindsNothing op s.newest) (ht : s.Tame)
    (a : s.Advances t op signal stage next told) (hsame : t.newest = s.newest) :
    t.Settling ∧ t.controller.state.queue.items = [] := by
  obtain ⟨search, hstage, hid, hitems⟩ := h
  obtain rfl := Option.some.inj (hstage.symm.trans a.before)
  have hnext : next.isSettling = true := a.transition.settles_of_items_eq_nil hitems
  constructor
  · intro op' stage' cascade hstage' hcascade hnewest
    rcases a.stage?_cases hstage' with ⟨-, rfl⟩ | ⟨hne, hold⟩
    · exact hnext
    · exact absurd (ht.alone hold hstage hcascade rfl (by omega)) hne
  · rcases a.items_eq_nil_or_refills ht hitems with hempty | ⟨_, _, _, hm, hold, hrefills⟩
    · exact hempty
    · cases hm
      obtain rfl := Option.some.inj (hstage.symm.trans hold)
      exact hrefills.elim

theorem Searching.advance (h : s.Searching) (ht : s.Tame) (ho : s.Ordered)
    (a : s.Advances t op signal stage next told) (haccepts : stage.Accepts signal)
    (hsame : t.newest = s.newest) :
    t.Searching ∨ t.Sounding ∨
      s.FindsNothing op s.newest ∧ t.Settling ∧ t.controller.state.queue.items = [] := by
  obtain ⟨op', stage', cascade, hstage', hsearching, hcascade, hid⟩ := h
  by_cases hop : op' = op
  · subst hop
    obtain rfl := Option.some.inj (hstage'.symm.trans a.before)
    have htoken : ∀ other, stage'.cascade? = some other →
        other.token = s.controller.token := by
      intro other hother
      obtain rfl := Option.some.inj (hcascade.symm.trans hother)
      rw [(ht.cascade a.before hcascade).1, hid, ht.token]
    rcases a.transition.searches haccepts hsearching htoken with
      hnext | ⟨search, rfl, hitems⟩ | ⟨serial, hstart, hrecord⟩
    · refine .inl ⟨op', next, cascade, a.stage?_self ?_, hnext, ?_, hid.trans hsame.symm⟩
      · rintro answer rfl
        cases hnext
      · rcases a.cascade?_next hcascade with hkeeps | hsettling
        · exact hkeeps
        · rw [Stage.isSettling_eq_false hsearching] at hsettling
          cases hsettling
    · obtain rfl : search.cascade = cascade := Option.some.inj hcascade
      have hfinds : s.FindsNothing op' s.newest := ⟨search, a.before, hid, hitems⟩
      exact .inr (.inr ⟨hfinds, hfinds.advance ht a hsame⟩)
    · exact .inr (.inl (sounding_of_starts ho a hsame hstart hrecord))
  · exact .inl ⟨op', stage', cascade, (a.stage?_of_ne hop).trans hstage', hsearching, hcascade,
      hid.trans hsame.symm⟩

theorem Settling.advance (h : s.Settling) (a : s.Advances t op signal stage next told)
    (hsame : t.newest = s.newest) : t.Settling := by
  intro op' stage' cascade hstage' hcascade hid
  obtain ⟨old, hold, hcascade'⟩ := a.cascade_of_newest_eq hsame hstage' hcascade
  have hsettling := h hold hcascade' (hid.trans hsame)
  rcases a.stage?_cases hstage' with ⟨rfl, rfl⟩ | ⟨-, hkept⟩
  · obtain rfl := Option.some.inj (hold.symm.trans a.before)
    rcases a.transition.settles hsettling with hnext | ⟨answer, rfl⟩
    · exact hnext
    · cases hcascade
  · obtain rfl := Option.some.inj (hold.symm.trans hkept)
    exact hsettling

/-- What is in the queue stays there, or is taken by an operation that will give it back. -/
theorem Waiting.advance (h : s.Waiting) (ht : s.Tame) (ho : s.Ordered) (hsettling : s.Settling)
    (a : s.Advances t op signal stage next told) (haccepts : stage.Accepts signal)
    (hsame : t.newest = s.newest) (htoken : t.controller.token = s.controller.token) :
    t.Waiting := by
  rcases h with hsounding | hitems | ⟨op', stage', hstage', howes⟩
  · exact .inl (hsounding.advance ho a (ht.stage a.before).withdraws hsame)
  · cases a.transition.fills (ht.stage a.before) with
    | keeps hkeeps => exact .inr (.inl (fun hempty => hitems (hkeeps.mp hempty)))
    | refills hrefills =>
      exact .inr (.inl (a.transition.refills (ht.stage a.before) hrefills))
    | @takes search l hstage hnext hl =>
      subst hstage hnext
      refine .inr (.inr ⟨op, .ask l, a.stage?_self (by simp), ?_⟩)
      show l.token ≠ t.controller.token
      rw [hl, htoken, ht.token, (ht.cascade a.before rfl).1]
      intro hid
      cases hsettling a.before rfl hid
  · by_cases hop : op' = op
    · subst hop
      obtain rfl := Option.some.inj (hstage'.symm.trans a.before)
      rcases a.transition.owes (ht.stage a.before) haccepts howes with hnext | hitems
      · refine .inr (.inr ⟨op', next, a.stage?_self ?_, by rw [htoken]; exact hnext⟩)
        rintro answer rfl
        exact hnext.elim
      · exact .inr (.inl hitems)
    · refine .inr (.inr ⟨op', stage', (a.stage?_of_ne hop).trans hstage', ?_⟩)
      rw [htoken]
      exact howes

/-! ## A request that comes in -/

theorem Searching.arrive (h : s.Searching) (ho : s.Ordered) (request : Request) :
    (s.arrive request).Searching := by
  obtain ⟨op, stage, cascade, hstage, hrest⟩ := h
  exact ⟨op, stage, cascade, ho.stage?_arrive_of_some hstage request, hrest⟩

theorem Sounding.arrive (h : s.Sounding) (ho : s.Ordered) (request : Request) :
    (s.arrive request).Sounding := by
  obtain ⟨n, hcurrent, hended⟩ := h
  refine ⟨n, hcurrent, ?_⟩
  intro op stage cascade hstage hcascade
  exact hended (ho.stage?_of_cascade? hstage hcascade) hcascade

theorem Settling.arrive (h : s.Settling) (ho : s.Ordered) (request : Request) :
    (s.arrive request).Settling := by
  intro op stage cascade hstage hcascade hid
  exact h (ho.stage?_of_cascade? hstage hcascade) hcascade hid

theorem Owing.arrive (h : s.Owing) (ho : s.Ordered) (request : Request) :
    (s.arrive request).Owing := by
  obtain ⟨op, stage, hstage, howes⟩ := h
  exact ⟨op, stage, ho.stage?_arrive_of_some hstage request, howes⟩

theorem Waiting.arrive (h : s.Waiting) (ho : s.Ordered) (request : Request) :
    (s.arrive request).Waiting :=
  h.imp (fun h => h.arrive ho request) (Or.imp_right fun h => h.arrive ho request)

/-! ## A whole run -/

/-- On the run the newest cascade has found the queue empty. -/
def FoundNothing (s : System) (moves : List Move) (t : System) : Prop :=
  ∃ before op signal after u v, moves = before ++ .advance op signal :: after ∧
    s.Run accepting before u ∧ u.FindsNothing op t.newest ∧
    u.move? (.advance op signal) = some v ∧ v.Run accepting after t

/-- On the run the newest cascade has found the queue empty, and later a track was put into
the queue. -/
def RefilledTooLate (s : System) (moves : List Move) (t : System) : Prop :=
  ∃ before op signal between m after u v w x,
    moves = before ++ .advance op signal :: (between ++ m :: after) ∧
    s.Run accepting before u ∧ u.FindsNothing op t.newest ∧
    u.move? (.advance op signal) = some v ∧ v.Run accepting between w ∧ w.Refills m ∧
    w.move? m = some x ∧ x.Run accepting after t

theorem FoundNothing.snoc (h : s.FoundNothing moves t) (hsame : u.newest = t.newest)
    (hallowed : accepting t m) (hmove : t.move? m = some u) :
    s.FoundNothing (moves ++ [m]) u := by
  obtain ⟨before, op, signal, after, v, w, rfl, hbefore, hfinds, hstep, hafter⟩ := h
  exact ⟨before, op, signal, after ++ [m], v, w, by simp, hbefore, hsame ▸ hfinds, hstep,
    hafter.snoc hallowed hmove⟩

theorem RefilledTooLate.snoc (h : s.RefilledTooLate moves t) (hsame : u.newest = t.newest)
    (hallowed : accepting t m) (hmove : t.move? m = some u) :
    s.RefilledTooLate (moves ++ [m]) u := by
  obtain ⟨before, op, signal, between, m', after, v, w, x, y, rfl, hbefore, hfinds, hrest⟩ := h
  obtain ⟨hstep, hbetween, hrefills, hstep', hafter⟩ := hrest
  exact ⟨before, op, signal, between, m', after ++ [m], v, w, x, y, by simp, hbefore,
    hsame ▸ hfinds, hstep, hbetween, hrefills, hstep', hafter.snoc hallowed hmove⟩

theorem FoundNothing.refilled (h : s.FoundNothing moves t) (hsame : u.newest = t.newest)
    (hrefills : t.Refills m) (hmove : t.move? m = some u) :
    s.RefilledTooLate (moves ++ [m]) u := by
  obtain ⟨before, op, signal, after, v, w, rfl, hbefore, hfinds, hstep, hafter⟩ := h
  exact ⟨before, op, signal, after, m, [], v, w, t, u, by simp, hbefore, hsame ▸ hfinds, hstep,
    hafter, hrefills, hmove, .nil⟩

/-- The newest cascade has found the queue empty, and the queue still is unless a track was
put into it. -/
def Ended (s : System) (moves : List Move) (t : System) : Prop :=
  t.Settling ∧ s.FoundNothing moves t ∧
    (t.controller.state.queue.items = [] ∨ s.RefilledTooLate moves t)

theorem Ended.snoc (h : s.Ended moves t) (hsettling : u.Settling) (hsame : u.newest = t.newest)
    (hallowed : accepting t m) (hmove : t.move? m = some u)
    (hitems : t.controller.state.queue.items = [] →
      u.controller.state.queue.items = [] ∨ t.Refills m) : s.Ended (moves ++ [m]) u := by
  obtain ⟨-, hfound, hempty | hrefilled⟩ := h
  · refine ⟨hsettling, hfound.snoc hsame hallowed hmove, ?_⟩
    rcases hitems hempty with hstill | hrefills
    · exact .inl hstill
    · exact .inr (hfound.refilled hsame hrefills hmove)
  · exact ⟨hsettling, hfound.snoc hsame hallowed hmove,
      .inr (hrefilled.snoc hsame hallowed hmove)⟩

/-- All along a run the newest cascade is in one of four phases. -/
theorem phases (hs : s.Untouched) (ht : s.Tame) (ho : s.Ordered)
    (run : s.Run accepting moves t) :
    t.Untouched ∨ t.Searching ∨ t.Sounding ∨ s.Ended moves t := by
  induction run with
  | nil => exact .inl hs
  | @snoc moves u v m run hallowed hmove ih =>
    have hou := ho.run run
    have htu := ht.run ho run
    cases m with
    | arrive request =>
      obtain rfl : u.arrive request = v := by simpa [move?] using hmove
      rcases ih with h | h | h | h
      · exact .inl h
      · exact .inr (.inl (h.arrive hou request))
      · exact .inr (.inr (.inl (h.arrive hou request)))
      · exact .inr (.inr (.inr (h.snoc (h.1.arrive hou request) rfl hallowed hmove .inl)))
    | advance op signal =>
      obtain ⟨stage, next, told, a⟩ := advances_of_advance? hmove
      have haccepts := hallowed stage a.before
      rcases a.newest_cases htu haccepts with ⟨hsame, htoken⟩ | ⟨-, hsearching⟩
      · rcases ih with h | h | h | h
        · exact .inl (h.advance htu hou a hsame)
        · rcases h.advance htu hou a haccepts hsame with h | h | ⟨hfinds, hsettling, hitems⟩
          · exact .inr (.inl h)
          · exact .inr (.inr (.inl h))
          · refine .inr (.inr (.inr ⟨hsettling, ?_, .inl hitems⟩))
            exact ⟨moves, op, signal, [], u, v, rfl, run, hsame ▸ hfinds, hmove, .nil⟩
        · exact .inr (.inr (.inl (h.advance hou a (htu.stage a.before).withdraws hsame)))
        · exact .inr (.inr (.inr (h.snoc (h.1.advance a hsame) hsame hallowed hmove
            (a.items_eq_nil_or_refills htu))))
      · exact .inr (.inl hsearching)

theorem newest_le_of_run (ho : s.Ordered) (run : s.Run accepting moves t) :
    s.newest ≤ t.newest :=
  ho.invariant (P := fun v => s.newest ≤ v.newest) (Nat.le_refl _) run (fun _ h _ => h)
    fun _ h _ a => Nat.le_trans h a.cascadeCount_le

/-- While no cascade is opened, one that has settled stays settled, and what is in the queue, or
will come back to it, leads to a current track or stays. -/
theorem Settling.run (hsettling : s.Settling) (ht : s.Tame) (ho : s.Ordered)
    (run : s.Run accepting moves t) (hsame : t.newest = s.newest) :
    t.Settling ∧ (s.Waiting → t.Waiting) := by
  have hall : t.Tame ∧ s.newest ≤ t.newest ∧
      (t.newest = s.newest → t.Settling ∧ (s.Waiting → t.Waiting)) := by
    refine ho.invariant (P := fun v => v.Tame ∧ s.newest ≤ v.newest ∧
      (v.newest = s.newest → v.Settling ∧ (s.Waiting → v.Waiting)))
      ⟨ht, Nat.le_refl _, fun _ => ⟨hsettling, id⟩⟩ run ?_ ?_
    · rintro v request ho ⟨ht, hle, h⟩ hplays
      refine ⟨ht.arrive ho hplays, hle, fun hsame => ?_⟩
      obtain ⟨hsettling, hwaiting⟩ := h hsame
      exact ⟨hsettling.arrive ho request, fun hs => (hwaiting hs).arrive ho request⟩
    · rintro v w op signal stage next told ho ⟨ht, hle, h⟩ hallowed a
      have haccepts := hallowed stage a.before
      refine ⟨ht.advance ho a haccepts, Nat.le_trans hle a.cascadeCount_le, fun hsame => ?_⟩
      rcases a.newest_cases ht haccepts with ⟨hkept, htoken⟩ | ⟨hnew, -⟩
      · obtain ⟨hsettling, hwaiting⟩ := h (hkept.symm.trans hsame)
        refine ⟨hsettling.advance a hkept, fun hs => ?_⟩
        exact (hwaiting hs).advance ht ho hsettling a haccepts hkept htoken
      · omega
  exact hall.2.2 hsame

theorem untouched_start (account : Account) (self : Nat) (words : RandomWords) :
    (start (Controller.start account self words)).Untouched := ⟨rfl, rfl, rfl, rfl⟩

/-- A track that comes into the queue after the newest cascade has found it empty is current,
or in the queue, or will come back to it. -/
theorem RefilledTooLate.waiting (h : s.RefilledTooLate moves t) (ht : s.Tame) (ho : s.Ordered) :
    t.Waiting := by
  obtain ⟨before, op, signal, between, m, after, u, v, w, x, -, hbefore, hfinds, hstep,
    hbetween, hrefills, hstep', hafter⟩ := h
  obtain ⟨op', signal', stage', rfl, hstage', hrefills⟩ := hrefills
  obtain ⟨search, hstage, hid, hitems⟩ := hfinds
  obtain ⟨stage, next, told, a⟩ := advances_of_advance? hstep
  obtain ⟨other, next', told', a'⟩ := advances_of_advance? hstep'
  obtain rfl := Option.some.inj (hstage.symm.trans a.before)
  obtain rfl := Option.some.inj (hstage'.symm.trans a'.before)
  have hou := ho.run hbefore
  have hov := hou.advance a
  have how := hov.run hbetween
  have hox := how.advance a'
  have htu := ht.run ho hbefore
  have htv := htu.advance hou a trivial
  have htw := htv.run hov hbetween
  have htx := htw.advance how a' (Stage.accepts_of_refills hrefills signal')
  -- No cascade is opened from the moment when the newest one finds the queue empty.
  have hu : t.newest ≤ u.newest := hid ▸ (hou.cascade hstage rfl).1
  have huv : u.newest ≤ v.newest := a.cascadeCount_le
  have hvw := newest_le_of_run hov hbetween
  have hwx : w.newest ≤ x.newest := a'.cascadeCount_le
  have hxt := newest_le_of_run hox hafter
  have hfinds : u.FindsNothing op u.newest := ⟨search, hstage, by omega, hitems⟩
  have hsv : v.Settling := (hfinds.advance htu a (by omega)).1
  have hsw : w.Settling := (hsv.run htv hov hbetween (by omega)).1
  have hsx : x.Settling := hsw.advance a' (by omega)
  have hrefilled := a'.transition.refills (htw.stage a'.before) hrefills
  exact (hsx.run htx hox hafter (by omega)).2 (.inr (.inl hrefilled))

/-- With no operation in flight and no current track, tracks are left in the queue exactly if
the newest cascade had found it empty before they came. -/
theorem left_waiting_iff (account : Account) (self : Nat) (words : RandomWords)
    (run : (start (Controller.start account self words)).Run accepting moves t)
    (hquiet : t.Quiet) :
    t.controller.state.record = none ∧ t.controller.state.queue.items ≠ [] ↔
      t.controller.state.record = none ∧
        (start (Controller.start account self words)).RefilledTooLate moves t := by
  have ht := tame_start account self words
  have ho := ordered_start account self words
  have hnone : ∀ op, t.stage? op = none := fun op => by
    simp [stage?, show t.inFlight = [] from hquiet]
  constructor
  · rintro ⟨hrecord, hitems⟩
    refine ⟨hrecord, ?_⟩
    rcases phases (untouched_start account self words) ht ho run with
      ⟨-, -, -, hempty⟩ | ⟨op, stage, -, hstage, -⟩ | ⟨n, hcurrent, -⟩ | ⟨-, -, hempty | hrefilled⟩
    · exact absurd hempty hitems
    · rw [hnone] at hstage
      cases hstage
    · simp [PlaybackState.serial?, hrecord] at hcurrent
    · exact absurd hempty hitems
    · exact hrefilled
  · rintro ⟨hrecord, hrefilled⟩
    refine ⟨hrecord, ?_⟩
    rcases hrefilled.waiting ht ho with ⟨n, hcurrent, -⟩ | hitems | ⟨op, stage, hstage, -⟩
    · simp [PlaybackState.serial?, hrecord] at hcurrent
    · exact hitems
    · rw [hnone] at hstage
      cases hstage

/-! ## A track that comes back too late

A track is added, and while it is resolved the next one is asked for.  The queue is empty, so
the cascade ends; only then the track is given back. -/

/-- Whether the move is allowed wherever it is made. -/
def isGranted : Move → Bool
  | .arrive request => request.plays
  | .advance _ signal => signal matches .go | .cancelled

theorem accepting_of_isGranted (h : isGranted m = true) (v : System) : accepting v m := by
  cases m with
  | arrive request => exact h
  | advance op signal =>
    intro stage _
    cases signal with
    | go => cases stage <;> exact trivial
    | cancelled => cases stage <;> exact trivial
    | resolved reply => cases h
    | played reply => cases h

theorem left_waiting_iff_of_playNext :
    let moves : List Move := .arrive (.enqueue (.remote "a")) :: goes 0 4 ++
      .arrive .playNext :: goes 1 5 ++ .advance 0 .cancelled :: goes 0 2
    let t := blank.after moves
    blank.Run accepting moves t ∧ t.Quiet ∧
      (t.controller.state.record = none ∧ t.controller.state.queue.items = [.remote "a"]) ∧
      blank.RefilledTooLate moves t := by
  intro moves t
  have hgranted : moves.all isGranted = true := by decide +kernel
  have hrun : blank.Run accepting moves t :=
    run_after_of_allowed
      (fun v m hm => accepting_of_isGranted (List.all_eq_true.mp hgranted m hm) v)
      (by decide +kernel)
  have hquiet : t.inFlight = [] := by decide +kernel
  have hrecord : t.controller.state.record = none := by decide +kernel
  have hitems : t.controller.state.queue.items = [.remote "a"] := by decide +kernel
  have hleft := left_waiting_iff ⟨default, ⟨[], .standard⟩, .empty⟩ 0 [] hrun hquiet
  exact ⟨hrun, hquiet, ⟨hrecord, hitems⟩, (hleft.mp ⟨hrecord, by simp [hitems]⟩).2⟩

end System

end Jukebox
