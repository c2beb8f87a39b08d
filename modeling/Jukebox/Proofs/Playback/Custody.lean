import Jukebox.Proofs.Playback.Order
import Jukebox.Proofs.Playback.Tracks

/-!
# Who holds a track

A track is held by the queue, by the history, by the record, or by an operation that has taken
it and is still in flight.  `System.held_unless_released` says that an identity is only lost in
a step that lets it go, or that ends a start whose record is no longer there; and there is a run
on which the latter happens (`System.lost_without_release`).
-/

namespace Jukebox

namespace System

open Controller (Faithful Steady Releases Outlives)

variable {s t : System} {op : Nat} {signal : Signal} {stage next : Stage}
  {told : List PlaybackEvent} {moves : List Move} {m : Move} {i : Identity}

/-- A track with the identity is in the queue, in the history, in the record, or with an
operation in flight. -/
def Holds (s : System) (i : Identity) : Prop :=
  (∃ track ∈ s.controller.state.tracks, track.identity? = some i) ∨
    ∃ op stage, s.stage? op = some stage ∧ ∃ track ∈ stage.tracks, track.identity? = some i

/-- Every track that comes in has one identity, and the resolver keeps to it. -/
def oneIdentity (s : System) : Move → Prop
  | .arrive request => Plain (request.launched ++ request.queued)
  | .advance op signal => ∀ stage, s.stage? op = some stage → Faithful stage signal

/-- The move is a step in which the identity may be let go. -/
def ReleasesBy (s : System) (m : Move) (t : System) (i : Identity) : Prop :=
  ∃ op signal stage, m = .advance op signal ∧ s.stage? op = some stage ∧
    Releases s.controller stage signal t.controller i

/-- The move ends a start whose record is no longer there. -/
def OutlivesBy (s : System) (m : Move) (i : Identity) : Prop :=
  ∃ op signal stage, m = .advance op signal ∧ s.stage? op = some stage ∧
    Outlives s.controller stage i

/-- Every track in the system has one identity, and operations know theirs. -/
structure Sound (s : System) : Prop where
  state : Plain s.controller.state.tracks
  stage : ∀ {op stage}, s.stage? op = some stage → Plain (stage.brought ++ stage.tracks)
  steady : ∀ {op stage}, s.stage? op = some stage → Steady stage s.controller.state.record

theorem sound_start (account : Account) (self : Nat) (words : RandomWords) :
    (start (Controller.start account self words)).Sound where
  state := by
    simp [Plain, start, Controller.start, PlaybackState.start, PlaybackState.tracks,
      Queue.tracks, Queue.empty]
  stage := fun h => by simp [start, stage?] at h
  steady := fun h => by simp [start, stage?] at h

theorem Sound.arrive (h : s.Sound) (ho : s.Ordered) {request : Request}
    (hplain : Plain (request.launched ++ request.queued)) : (s.arrive request).Sound where
  state := h.state
  stage := by
    intro op stage hstage
    rcases ho.stage?_arrive_cases hstage with ⟨-, rfl⟩ | ⟨-, hold⟩
    · exact hplain.append (by simp [Plain, Stage.tracks])
    · exact h.stage hold
  steady := by
    intro op stage hstage
    rcases ho.stage?_arrive_cases hstage with ⟨-, rfl⟩ | ⟨-, hold⟩
    · exact Controller.steady_of_unlaunched rfl rfl
    · exact h.steady hold

theorem Sound.before (h : s.Sound) (hstage : s.stage? op = some stage) :
    Plain (stage.brought ++ stage.tracks ++ s.controller.state.tracks) :=
  (h.stage hstage).append h.state

/-- The record of an operation inside the gate is made or taken away by nobody else. -/
theorem Sound.steady_advance (h : s.Sound) (ho : s.Ordered)
    (a : s.Advances t op signal stage next told) (hfaithful : Faithful stage signal) {op' : Nat}
    {stage' : Stage} (hstage' : t.stage? op' = some stage') :
    Steady stage' t.controller.state.record := by
  rcases a.stage?_cases hstage' with ⟨-, rfl⟩ | ⟨hne, hold⟩
  · exact a.transition.steady (h.steady a.before) hfaithful
  · intro l hl
    obtain ⟨hown, hmade⟩ := h.steady hold l hl
    refine ⟨hown, ?_⟩
    intro hlaunched made hrecord
    have hout := ho.not_isInside a.before hne hold (Stage.isInside_of_isLaunched hlaunched)
    cases a.transition.recordMove with
    | keeps _ _ _ htrack =>
      rw [hrecord] at htrack
      obtain ⟨was, hwas, heq⟩ := Option.map_eq_some_iff.mp htrack.symm
      rw [← heq]
      exact hmade hlaunched was hwas
    | retires hnone => simp [PlaybackState.serial?, hrecord] at hnone
    | installs hstart => simp [Stage.isInside_of_start? hstart] at hout
    | rollsBack hroll => subst hroll; cases hout
    | commits hcommit => simp [Stage.isInside_of_isLaunched hcommit] at hout

theorem Sound.advance (h : s.Sound) (ho : s.Ordered)
    (a : s.Advances t op signal stage next told) (hfaithful : Faithful stage signal) :
    t.Sound := by
  obtain ⟨lost, hcarries, -⟩ := a.transition.handsOn (h.steady a.before) hfaithful
  have hplain := hcarries.plain (h.before a.before)
  refine ⟨hplain.of_subset (List.subset_append_right _ _), ?_, h.steady_advance ho a hfaithful⟩
  intro op' stage' hstage'
  rcases a.stage?_cases hstage' with ⟨-, rfl⟩ | ⟨-, hold⟩
  · rw [a.transition.brought]
    exact hplain.of_subset
      (List.Subset.trans (List.subset_append_right lost _) (List.subset_append_left _ _))
  · exact h.stage hold

theorem Sound.run (h : s.Sound) (ho : s.Ordered) (run : s.Run oneIdentity moves t) : t.Sound := by
  refine ho.invariant h run ?_ ?_
  · intro v request ho h hplain
    exact h.arrive ho hplain
  · intro v w op signal stage next told ho h hfaithful a
    exact h.advance ho a (hfaithful stage a.before)

theorem Holds.arrive (h : s.Holds i) (ho : s.Ordered) (request : Request) :
    (s.arrive request).Holds i := by
  refine h.imp_right ?_
  rintro ⟨op, stage, hstage, htracks⟩
  exact ⟨op, stage, ho.stage?_arrive_of_some hstage request, htracks⟩

theorem Holds.advance (h : s.Holds i) (hs : s.Sound)
    (a : s.Advances t op signal stage next told) (hfaithful : Faithful stage signal) :
    t.Holds i ∨ Releases s.controller stage signal t.controller i ∨
      Outlives s.controller stage i := by
  obtain ⟨lost, hcarries, hlost⟩ := a.transition.handsOn (hs.steady a.before) hfaithful
  -- What the step touches is handed on, to the state or to the operation, or let go.
  have htouched : ∀ track ∈ stage.tracks ++ s.controller.state.tracks,
      track.identity? = some i → t.Holds i ∨ Releases s.controller stage signal t.controller i ∨
        Outlives s.controller stage i := by
    intro track htrack hi
    have hmem : track ∈ stage.brought ++ stage.tracks ++ s.controller.state.tracks := by
      rw [List.append_assoc]
      exact List.mem_append_right _ htrack
    obtain ⟨other, hother, heq⟩ := hcarries.kept (hs.before a.before) track hmem
    have hoi := heq.trans hi
    rw [List.append_assoc, List.mem_append, List.mem_append] at hother
    rcases hother with hother | hother | hother
    · exact .inr (hlost other hother i hoi)
    · refine .inl (.inr ⟨op, next, a.stage?_self ?_, other, hother, hoi⟩)
      rintro answer rfl
      cases hother
    · exact .inl (.inl ⟨other, hother, hoi⟩)
  rcases h with ⟨track, htrack, hi⟩ | ⟨op', stage', hstage', track, htrack, hi⟩
  · exact htouched track (List.mem_append_right _ htrack) hi
  · by_cases hop : op' = op
    · subst hop
      obtain rfl := Option.some.inj (hstage'.symm.trans a.before)
      exact htouched track (List.mem_append_left _ htrack) hi
    · exact .inl (.inr ⟨op', stage', (a.stage?_of_ne hop).trans hstage', track, htrack, hi⟩)

/-- On every run of any requests with any answers: an identity that is held stays held, unless
the move lets it go, or ends a start whose record is no longer there. -/
theorem held_unless_released (account : Account) (self : Nat) (words : RandomWords)
    (run : (start (Controller.start account self words)).Run oneIdentity moves s)
    (hallowed : oneIdentity s m) (hmove : s.move? m = some t) (hheld : s.Holds i) :
    t.Holds i ∨ s.ReleasesBy m t i ∨ s.OutlivesBy m i := by
  have ho := (ordered_start account self words).run run
  have hs := (sound_start account self words).run (ordered_start account self words) run
  cases m with
  | arrive request =>
    obtain rfl : s.arrive request = t := by simpa [move?] using hmove
    exact .inl (hheld.arrive ho request)
  | advance op signal =>
    obtain ⟨stage, next, told, a⟩ := advances_of_advance? hmove
    rcases hheld.advance hs a (hallowed stage a.before) with hheld | hreleases | houtlives
    · exact .inl hheld
    · exact .inr (.inl ⟨op, signal, stage, rfl, a.before, hreleases⟩)
    · exact .inr (.inr ⟨op, signal, stage, rfl, a.before, houtlives⟩)

/-! ## A start that outlives its record

A track starts; before the player has answered, its end is reported, so the record goes to the
history; somebody goes back to it, and it cannot be resolved any more.  Now only the start
itself holds the track, and when the player has answered it does not either. -/

/-- Until the resolver has answered for the first time. -/
def untilResolved : List Move := .arrive (.enqueue (.remote "x")) :: goes 0 4

/-- From then on until the player has answered. -/
def untilAnswered : List Move :=
  goes 0 2 ++ .arrive (.ended 1) :: goes 1 5 ++ .arrive .previous :: goes 2 3 ++
    .advance 2 (.resolved (.error (.resolution "gone"))) :: goes 2 2 ++
    [.advance 0 (.played (.ok ()))]

/-- The start of the track, and its end before the player has answered. -/
def endBeforeAnswer : List Move :=
  untilResolved ++ .advance 0 (.resolved (.ok (some ⟨.remote "x", "u"⟩))) :: untilAnswered

/-- Whether the move is allowed wherever it is made. -/
def isPlain : Move → Bool
  | .arrive request => (request.launched ++ request.queued).all (·.identity?.isSome)
  | .advance _ (.resolved (.ok (some _))) => false
  | .advance _ _ => true

theorem oneIdentity_of_isPlain (h : isPlain m = true) (v : System) : oneIdentity v m := by
  cases m with
  | arrive request => exact List.all_eq_true.mp h
  | advance op signal =>
    rintro _ _ _ r _ rfl
    cases h

theorem run_endBeforeAnswer :
    blank.Run oneIdentity endBeforeAnswer (blank.after endBeforeAnswer) := by
  have hplain : ∀ moves : List Move, moves.all isPlain = true →
      ∀ v, ∀ m ∈ moves, oneIdentity v m :=
    fun moves h v m hm => oneIdentity_of_isPlain (List.all_eq_true.mp h m hm) v
  have hfirst : blank.Run oneIdentity untilResolved (blank.after untilResolved) :=
    run_after_of_allowed (hplain _ (by decide +kernel)) (by decide +kernel)
  let resolved : Move := .advance 0 (.resolved (.ok (some ⟨.remote "x", "u"⟩)))
  have hresolved : (blank.after untilResolved).Run oneIdentity [resolved]
      ((blank.after untilResolved).after [resolved]) := by
    refine Run.single ?_ (move?_eq_some_after (by decide +kernel))
    have hstage : (blank.after untilResolved).stage? 0 = some (.resolving
        ⟨.remote "x", none, 0, .search ⟨⟨1, 1, none⟩, 1, 0, ⟨3, 0, 0⟩⟩ 0⟩) := by
      decide +kernel
    intro stage h l r hl hr
    obtain rfl := Option.some.inj (hstage.symm.trans h)
    cases hl
    cases hr
    rfl
  have hrest : ((blank.after untilResolved).after [resolved]).Run oneIdentity untilAnswered
      (((blank.after untilResolved).after [resolved]).after untilAnswered) :=
    run_after_of_allowed (hplain _ (by decide +kernel)) (by decide +kernel)
  have hall := (hfirst.append hresolved).append hrest
  rw [List.append_assoc] at hall
  have hend : blank.after endBeforeAnswer = _ := hall.after_eq
  rw [hend]
  exact hall

theorem stage?_endBeforeAnswer : (blank.after endBeforeAnswer).stage? 0 =
    some (.commit ⟨.remote "x", none, 0, .search ⟨⟨1, 1, none⟩, 1, 0, ⟨3, 0, 0⟩⟩ 0⟩
      ⟨.remote "x", "u"⟩ none) := by
  decide +kernel

theorem holds_endBeforeAnswer : (blank.after endBeforeAnswer).Holds (.remote "x") :=
  .inr ⟨0, _, stage?_endBeforeAnswer, .remote "x", List.mem_cons_self, by decide +kernel⟩

theorem not_holds_endBeforeAnswer :
    ¬((blank.after endBeforeAnswer).after (goes 0 1)).Holds (.remote "x") := by
  have hstate : ((blank.after endBeforeAnswer).after (goes 0 1)).controller.state.tracks = [] := by
    decide +kernel
  have hstages : ((blank.after endBeforeAnswer).after (goes 0 1)).inFlight.flatMap
      (fun entry => entry.2.tracks) = [] := by
    decide +kernel
  rintro (⟨track, htrack, -⟩ | ⟨op, stage, hstage, track, htrack, -⟩)
  · rw [hstate] at htrack
    cases htrack
  · have hempty := List.flatMap_eq_nil_iff.mp hstages _ (mem_inFlight_of_stage? hstage)
    rw [show stage.tracks = [] from hempty] at htrack
    cases htrack

theorem held_unless_released_of_endBeforeAnswer :
    (blank.after endBeforeAnswer).Holds (.remote "x") ∧
      (((blank.after endBeforeAnswer).after (goes 0 1)).Holds (.remote "x") ∨
        (blank.after endBeforeAnswer).ReleasesBy (.advance 0 .go)
          ((blank.after endBeforeAnswer).after (goes 0 1)) (.remote "x") ∨
        (blank.after endBeforeAnswer).OutlivesBy (.advance 0 .go) (.remote "x")) :=
  ⟨holds_endBeforeAnswer,
    held_unless_released ⟨default, ⟨[], .standard⟩, .empty⟩ 0 [] run_endBeforeAnswer
      (oneIdentity_of_isPlain rfl _) (move?_eq_some_after (by decide +kernel))
      holds_endBeforeAnswer⟩

/-- The identity is lost in a step that is none of those that let one go. -/
theorem lost_without_release :
    ¬∀ (account : Account) (self : Nat) (words : RandomWords) (moves : List Move)
      (s t : System) (m : Move) (i : Identity),
      (start (Controller.start account self words)).Run oneIdentity moves s →
      oneIdentity s m → s.move? m = some t → s.Holds i → t.Holds i ∨ s.ReleasesBy m t i := by
  intro hall
  have hmove : (blank.after endBeforeAnswer).move? (.advance 0 .go) =
      some ((blank.after endBeforeAnswer).after (goes 0 1)) :=
    move?_eq_some_after (by decide +kernel)
  rcases hall _ _ _ _ _ _ _ (.remote "x") run_endBeforeAnswer (oneIdentity_of_isPlain rfl _)
    hmove holds_endBeforeAnswer with hheld | ⟨op, signal, stage, hm, hstage, hreleases⟩
  · exact not_holds_endBeforeAnswer hheld
  · cases hm
    obtain rfl := Option.some.inj (stage?_endBeforeAnswer.symm.trans hstage)
    cases hreleases with
    | overtaken h => rcases h with ⟨⟨⟩⟩ | ⟨r, h⟩; cases h
    | evicted hhistory hold =>
      have hempty : (blank.after endBeforeAnswer).controller.state.queue.history = [] := by
        decide +kernel
      rw [hempty] at hold
      cases hold

end System

end Jukebox
