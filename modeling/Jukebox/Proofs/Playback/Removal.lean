import Jukebox.Proofs.Playback.Seeking
import Jukebox.Proofs.Playback.Tracks
import Jukebox.Proofs.Queue.Listed

/-!
# What brings back a track that was taken out by hand

Somebody takes a track out of the queue, and from then on nobody adds it and nobody goes back from
it.  It comes into the queue again only if a cascade that has taken it is overtaken and gives it
back, or if the fuller description of a track that was started is laid over an entry
(`Controller.Transition.lists_of_next`).  The first to give it back has taken it before it was
taken out by hand (`System.removed_returns_iff`): a queue that is emptied or replaced is not given
anything back, but one from which a track is taken is.
-/

namespace Jukebox

namespace Stage

/-- The next step adds the track because somebody asked for it, or puts it at the head because
somebody has gone back from it. -/
def Adds (track : Track) : Stage → Prop
  | .begin request => ∃ other ∈ request.queued, other.Is track
  | .commit ⟨_, _, _, .goBack _ _⟩ _ (some record) => record.track.Is track
  | _ => False

/-- The next step puts the track into the queue, and nobody has asked for it. -/
inductive Returns (s : PlaybackState) (track : Track) : Stage → Prop
  /-- An overtaken cascade gives it back, and the queue was not replaced since it was taken. -/
  | givesBack {cascade : Cascade} {other : Track} (h : other.Is track) :
      Returns s track (.giveBack cascade other s.generation)
  /-- The fuller description of a track that was started is laid over an entry. -/
  | relabels {l : Launch} {r : ResolvedTrack} {displaced : Option PlaybackRecord} {item : Track}
      (h : r.track.Is track) (hitem : item ∈ s.queue.items) (hsame : item.same r.track = true) :
      Returns s track (.commit l r displaced)

theorem Returns.need_eq_lock {s : PlaybackState} {track : Track} {stage : Stage}
    (h : stage.Returns s track) : stage.need = .lock := by
  cases h <;> rfl

end Stage

namespace Controller

variable {c d : Controller} {op : Nat} {stage next : Stage} {signal : Signal} {track : Track}

open Queue (Lists)

/-! ## How a track comes into the queue -/

/-- A request puts nothing into the queue but what it brings. -/
theorem lists_of_queueAfter {s : PlaybackState} {request : Request}
    (h : (request.queueAfter s).Lists track) :
    (∃ other ∈ request.queued, other.Is track) ∨ s.queue.Lists track := by
  cases request with
  | enqueue other => exact h.of_add.imp_left fun his => ⟨other, List.mem_cons_self, his⟩
  | addPlaylist tracks => exact h.of_addAll
  | exchange i j =>
    simp only [Request.queueAfter] at h
    cases he : s.queue.exchange i j with
    | error e => exact .inr (by simpa [he, Except.toOption] using h)
    | ok q =>
      rw [he] at h
      exact .inr (Lists.of_exchange h he)
  | remove index =>
    simp only [Request.queueAfter] at h
    cases he : s.queue.remove index with
    | error e => exact .inr (by simpa [he, Except.toOption] using h)
    | ok removed =>
      rw [he] at h
      exact .inr (Lists.of_remove h he)
  | shuffle => exact .inr h.of_shuffled
  | clear => exact (Queue.not_lists_clear _ _ h).elim
  | restore saved how => exact h.of_restore
  | setPlaylist playlist tracks =>
    have hreplaced : (s.queue.restore tracks .replace).Lists track := by
      simp only [Request.queueAfter, PlaybackState.setPlaylist] at h
      split at h
      · exact h.of_shuffled
      · exact h
    exact hreplaced.of_restore
  | _ => exact .inr h

theorem lists_of_giveBack {s : PlaybackState} {cascade : Cascade} {other : Track} {n : Nat}
    (h : (s.giveBack other n).queue.Lists track) :
    s.queue.Lists track ∨ (Stage.giveBack cascade other n).Returns s track := by
  unfold PlaybackState.giveBack at h
  split at h
  · next hgeneration =>
    subst hgeneration
    exact h.of_add.symm.imp_right .givesBack
  · exact .inl h

theorem lists_of_commit {s : PlaybackState} {l : Launch} {r : ResolvedTrack}
    {displaced : Option PlaybackRecord} (hadds : ¬(Stage.commit l r displaced).Adds track)
    (h : (displace l.purpose (s.queue.refresh r.track) displaced).Lists track) :
    s.queue.Lists track ∨ (Stage.commit l r displaced).Returns s track := by
  have hrefreshed : (s.queue.refresh r.track).Lists track := by
    obtain ⟨other, offset, retries, purpose⟩ := l
    cases displaced with
    | none => exact h
    | some record =>
      cases purpose with
      | goBack cascade attempts => exact h.of_add.resolve_left hadds
      | _ => exact h
  rcases hrefreshed.of_refresh with hbefore | ⟨his, item, hitem, hsame⟩
  · exact .inl hbefore
  · exact .inr (.relabels his hitem hsame)

theorem Transition.lists_of_next (h : Transition c op stage signal d next)
    (hadds : ¬stage.Adds track) (hd : d.state.queue.Lists track) :
    c.state.queue.Lists track ∨ stage.Returns c.state track := by
  cases h with
  | @begin request d next told e =>
    have hqueue := begin_queue c op request
    rw [e] at hqueue
    rw [hqueue] at hd
    exact .inl ((lists_of_queueAfter hd).resolve_left hadds)
  | take h =>
    obtain ⟨taken, hnext, hstate⟩ := Option.map_eq_some_iff.mp h
    cases hstate
    exact .inl (Lists.of_next? hd hnext)
  | takeNothing => exact .inl ((Queue.lists_congr (items_closeCascade _ _)).mp hd)
  | giveBack => exact lists_of_giveBack hd
  | settle => exact .inl ((Queue.lists_congr (items_closeCascade _ _)).mp hd)
  | close => exact .inl ((Queue.lists_congr (items_closeCascade _ _)).mp hd)
  | takeBack h => exact .inl ((Queue.lists_congr (Queue.items_takeBack? h)).mp hd)
  | commit => exact lists_of_commit hadds hd
  | retire => exact .inl ((Queue.lists_congr (items_retire _)).mp hd)
  | _ => exact .inl hd

/-! ## Who holds a track -/

theorem Begins.held? (h : Begins c op d next) : next.held? = none := by
  cases h with
  | opens frame hended hnext => obtain rfl | rfl | ⟨_, _, rfl⟩ := hnext <;> rfl
  | cancels => rfl
  | holds frame hnext => obtain rfl | ⟨_, rfl⟩ | ⟨_, rfl⟩ := hnext <;> rfl
  | keeps frame hnext => obtain rfl | rfl | ⟨_, rfl⟩ := hnext <;> rfl

theorem Unburdened.held? {cascade : Cascade} (h : Unburdened cascade stage) :
    stage.held? = none := by
  cases h <;> rfl

theorem held?_superseded (l : Launch) : (superseded l).held? = (Stage.ask l).held? := by
  obtain ⟨track, offset, retries, purpose⟩ := l
  cases purpose <;> rfl

/-- An operation comes by a track of the queue only when it takes it. -/
theorem Transition.held_of_next (h : Transition c op stage signal d next)
    (hnext : next.held? = some track) :
    stage.held? = some track ∨ ∃ state, c.state.takeNext? = some (track, state) := by
  cases h with
  | begin e begins => cases begins.held?.symm.trans hnext
  | measure => cases (unburdened_nextAttempt c _).held?.symm.trans hnext
  | retry => cases (unburdened_nextAttempt c _).held?.symm.trans hnext
  | @take search other state h =>
    obtain rfl : other = track := Option.some.inj hnext
    exact .inr ⟨state, h⟩
  | install => exact .inl hnext
  | rollBack => cases (unburdened_failed _ _).held?.symm.trans hnext
  | commit => cases (unburdened_succeeded _).held?.symm.trans hnext
  | enter => exact .inl hnext
  | refuse => exact .inl ((held?_superseded _).symm.trans hnext)
  | askDirect => exact .inl hnext
  | askResolver => exact .inl hnext
  | cancel hinterrupt =>
    cases hinterrupt <;> exact .inl ((held?_superseded _).symm.trans hnext)
  | resolve => exact .inl hnext
  | resolveFails => cases (unburdened_failed _ _).held?.symm.trans hnext
  | _ => cases hnext

end Controller

namespace System

variable {allowed : System → Move → Prop} {s t u v w : System} {op index : Nat} {signal : Signal}
  {stage next : Stage} {told : List PlaybackEvent} {moves before after : List Move} {m : Move}
  {track other : Track}

/-- One of the tracks to come is this one. -/
def Lists (s : System) (track : Track) : Prop := s.controller.state.queue.Lists track

/-- Nobody adds the track, and nobody goes back from it. -/
def withoutAdding (track : Track) (s : System) : Move → Prop
  | .arrive _ => True
  | .advance op _ => ∀ stage, s.stage? op = some stage → ¬stage.Adds track

/-- The track is in the queue before each of the moves and after the last. -/
def StaysListed (s : System) (track : Track) (moves : List Move) (t : System) : Prop :=
  s.Run (fun v _ => v.Lists track) moves t ∧ t.Lists track

/-- On the way the track is put into the queue though nobody asked for it, and it stays. -/
def ComesBack (s : System) (track : Track) (moves : List Move) (t : System) : Prop :=
  ∃ first op rest u v stage, moves = first ++ .advance op .go :: rest ∧ s.Run anyMove first u ∧
    u.stage? op = some stage ∧ stage.Returns u.controller.state track ∧
    u.move? (.advance op .go) = some v ∧ v.StaysListed track rest t

/-- The first time that the track is put into the queue though nobody asked for it, it is given
back by an operation that holds it already now, or it is laid over an entry. -/
def ReturnsFirst (s : System) (track : Track) (moves : List Move) : Prop :=
  ∃ first op rest u stage, moves = first ++ .advance op .go :: rest ∧
    s.Run (fun v _ => ¬v.Lists track) first u ∧ ¬u.Lists track ∧ u.stage? op = some stage ∧
    stage.Returns u.controller.state track ∧
    ∀ cascade other n, stage = .giveBack cascade other n →
      ∃ holding, s.stage? op = some holding ∧ holding.held? = some other

/-! ## From the removal on -/

/-- A step after which the track is in the queue, and nobody has added it. -/
theorem lists_cases_of_move (hallowed : s.withoutAdding track m) (hmove : s.move? m = some t)
    (ht : t.Lists track) : s.Lists track ∨ ∃ op stage, m = .advance op .go ∧
      s.stage? op = some stage ∧ stage.Returns s.controller.state track := by
  cases m with
  | arrive request =>
    obtain rfl : s.arrive request = t := by simpa [move?] using hmove
    exact .inl ht
  | advance op signal =>
    obtain ⟨stage, next, told, a⟩ := advances_of_advance? hmove
    refine (a.transition.lists_of_next (hallowed stage a.before) ht).imp_right fun hreturns => ?_
    obtain rfl := a.signal_of_lock hreturns.need_eq_lock
    exact ⟨op, stage, rfl, a.before, hreturns⟩

theorem StaysListed.snoc (h : s.StaysListed track moves t) (hmove : t.move? m = some u)
    (hu : u.Lists track) : s.StaysListed track (moves ++ [m]) u :=
  ⟨h.1.snoc h.2 hmove, hu⟩

theorem StaysListed.lists (h : s.StaysListed track moves t) : s.Lists track := by
  cases moves with
  | nil =>
    obtain rfl := h.1.target_unique .nil
    exact h.2
  | cons m moves =>
    obtain ⟨u, hfirst, -⟩ := h.1.split_cons
    exact hfirst.of_single.1

theorem ComesBack.snoc (h : s.ComesBack track moves t) (hmove : t.move? m = some u)
    (hu : u.Lists track) : s.ComesBack track (moves ++ [m]) u := by
  obtain ⟨first, op, rest, v, w, stage, rfl, hfirst, hstage, hreturns, hreturn, hstays⟩ := h
  exact ⟨first, op, rest ++ [m], v, w, stage, by simp, hfirst, hstage, hreturns, hreturn,
    hstays.snoc hmove hu⟩

/-- The track is in the queue if it was never out of it, or has come back to stay. -/
theorem lists_iff_of_run (run : s.Run (withoutAdding track) moves t) :
    t.Lists track ↔ s.StaysListed track moves t ∨ s.ComesBack track moves t := by
  constructor
  · intro ht
    induction run with
    | nil => exact .inl ⟨.nil, ht⟩
    | @snoc moves u v m run hallowed hmove ih =>
      rcases lists_cases_of_move hallowed hmove ht with hu | ⟨op, stage, rfl, hstage, hreturns⟩
      · exact (ih hu).imp (·.snoc hmove ht) (·.snoc hmove ht)
      · exact .inr ⟨moves, op, [], u, v, stage, rfl, run.weaken fun _ => trivial, hstage, hreturns,
          hmove, .nil, ht⟩
  · rintro (⟨-, ht⟩ | ⟨-, -, -, -, -, -, -, -, -, -, -, -, ht⟩)
    · exact ht
    · exact ht

/-- While the track is not in the queue, nobody comes by it. -/
theorem holds_of_unlisted (ho : s.Ordered) (run : s.Run (fun v _ => ¬v.Lists track) moves t)
    (hstage : t.stage? op = some stage) (hheld : stage.held? = some other)
    (his : other.Is track) :
    ∃ holding, s.stage? op = some holding ∧ holding.held? = some other := by
  induction run generalizing stage with
  | nil => exact ⟨stage, hstage, hheld⟩
  | @snoc moves u v m run hunlisted hmove ih =>
    cases m with
    | arrive request =>
      obtain rfl : u.arrive request = v := by simpa [move?] using hmove
      rcases (ho.run run).stage?_arrive_cases hstage with ⟨-, rfl⟩ | ⟨-, hold⟩
      · cases hheld
      · exact ih hold hheld
    | advance op' signal =>
      obtain ⟨old, next, told, a⟩ := advances_of_advance? hmove
      rcases a.stage?_cases hstage with ⟨rfl, rfl⟩ | ⟨-, hold⟩
      · rcases a.transition.held_of_next hheld with hbefore | ⟨state, htake⟩
        · exact ih a.before hbefore
        · obtain ⟨taken, hnext, hstate⟩ := Option.map_eq_some_iff.mp htake
          cases hstate
          exact absurd (Queue.lists_of_taken his hnext) hunlisted
      · exact ih hold hheld

/-- A track that is in the queue again has come there for a first time. -/
theorem returnsFirst_of_run (ho : s.Ordered) (hs : ¬s.Lists track)
    (run : s.Run (withoutAdding track) moves t) (ht : t.Lists track) :
    s.ReturnsFirst track moves := by
  suffices hall : s.ReturnsFirst track moves ∨
      s.Run (fun v _ => ¬v.Lists track) moves t ∧ ¬t.Lists track from
    hall.resolve_right fun hnever => hnever.2 ht
  clear ht
  induction run with
  | nil => exact .inr ⟨.nil, hs⟩
  | @snoc moves u v m run hallowed hmove ih =>
    rcases ih with ⟨first, op, rest, x, stage, rfl, hrest⟩ | ⟨hnever, hu⟩
    · exact .inl ⟨first, op, rest ++ [m], x, stage, by simp, hrest⟩
    by_cases hv : v.Lists track
    · obtain ⟨op, stage, rfl, hstage, hreturns⟩ :=
        (lists_cases_of_move hallowed hmove hv).resolve_left hu
      refine .inl ⟨moves, op, [], u, stage, rfl, hnever, hu, hstage, hreturns, ?_⟩
      rintro cascade other n rfl
      cases hreturns with
      | givesBack his => exact holds_of_unlisted ho hnever hstage rfl his
    · exact .inr ⟨hnever.snoc hu hmove, hv⟩

theorem mem_log_of_remove (hstage : s.stage? op = some (.begin (.remove index)))
    (hindex : s.controller.state.queue.items[index]? = some track)
    (hmove : s.move? (.advance op .go) = some t) :
    .answered op (.removed (.ok track)) ∈ t.log := by
  obtain ⟨stage, next, told, a⟩ := advances_of_advance? hmove
  obtain rfl := Option.some.inj (a.before.symm.trans hstage)
  have hstep := a.step
  simp only [Controller.step?, Stage.need, Option.ite_none_right_eq_some, Option.some.injEq,
    Controller.locked, Controller.begin, Queue.remove, hindex, Controller.answer,
    Prod.mk.injEq] at hstep
  obtain ⟨-, -, rfl, -⟩ := hstep
  exact mem_log_of_finished hmove a.before a.step

/-- What an overtaken cascade gives back to a queue that was not replaced is in the queue again. -/
theorem lists_of_givesBack {cascade : Cascade}
    (hstage : s.stage? op = some (.giveBack cascade other s.controller.state.generation))
    (his : other.Is track) (hmove : s.move? (.advance op .go) = some t) : t.Lists track := by
  obtain ⟨stage, next, told, a⟩ := advances_of_advance? hmove
  obtain rfl := Option.some.inj (a.before.symm.trans hstage)
  have hstep := a.step
  simp only [Controller.step?, Stage.need, Option.ite_none_right_eq_some, Option.some.injEq,
    Controller.locked, Controller.update, PlaybackState.giveBack, if_true, Prod.mk.injEq] at hstep
  obtain ⟨-, hd, -⟩ := hstep
  rw [Lists, ← hd]
  exact Queue.lists_add his _ _

/-- Somebody takes the track out of the queue by hand, and from then on nobody adds it and nobody
goes back from it.  It is in the queue again exactly if another entry was this track all along, or
it has come back to stay; and unless another entry was this track, whoever was the first to give it
back had taken it before.  Whoever gives it back does bring it back. -/
theorem removed_returns_iff (account : Account) (self : Nat) (words : RandomWords)
    (run : (start (Controller.start account self words)).Run anyMove before u)
    (hstage : u.stage? op = some (.begin (.remove index)))
    (hindex : u.controller.state.queue.items[index]? = some track)
    (hmove : u.move? (.advance op .go) = some v)
    (rest : v.Run (withoutAdding track) after w) :
    .answered op (.removed (.ok track)) ∈ v.log ∧
      (w.Lists track ↔ v.StaysListed track after w ∨ v.ComesBack track after w) ∧
      (¬v.Lists track → w.Lists track → v.ReturnsFirst track after) ∧
      ∀ {x y : System} {op : Nat} {cascade : Cascade} {other : Track}, other.Is track →
        x.stage? op = some (.giveBack cascade other x.controller.state.generation) →
        x.move? (.advance op .go) = some y → y.Lists track := by
  have ho := (ordered_start account self words).run run
  refine ⟨mem_log_of_remove hstage hindex hmove, lists_iff_of_run rest, ?_, ?_⟩
  · intro hv hw
    exact returnsFirst_of_run (ho.move hmove) hv rest hw
  · intro x y op cascade other his hgives hreturn
    exact lists_of_givesBack hgives his hreturn

/-- Whether the move is allowed wherever it is made, if the operations in flight add nothing. -/
def isWithoutAdding (track : Track) (s : System) : Move → Bool
  | .arrive _ => true
  | .advance op _ => (s.stage? op).all fun stage =>
      match stage with
      | .begin request => !request.queued.any fun other => decide (other.Is track)
      | .commit _ _ _ => false
      | _ => true

theorem withoutAdding_of_isWithoutAdding (v : System) (m : Move)
    (h : v.isWithoutAdding track m = true) : withoutAdding track v m := by
  cases m with
  | arrive request => trivial
  | advance op signal =>
    intro stage hstage hadds
    simp only [isWithoutAdding, hstage, Option.all_some] at h
    cases stage with
    | begin request =>
      obtain ⟨other, hother, his⟩ := hadds
      simp only [Bool.not_eq_true', List.any_eq_false, decide_eq_true_eq] at h
      exact h other hother his
    | commit l r displaced => cases h
    | _ => exact hadds

/-- In a loop mode a cascade takes a track, which so goes to the end of the queue as well.  While
the resolver looks for it, somebody takes it out by hand; then somebody stops, and the cascade
gives it back. -/
theorem removed_returns_iff_of_stop :
    let track := Track.remote "a"
    let u := blank.after (.arrive (.setMode .sequentialLoop) :: goes 0 1 ++
      .arrive (.enqueue track) :: goes 1 4 ++ [.arrive (.remove 0)])
    let v := u.after (goes 2 1)
    let after : List Move := .arrive (.stop false) :: goes 3 1 ++ .advance 1 .cancelled ::
      goes 1 2 ++ goes 3 2 ++ [.advance 3 (.played (.ok ()))]
    let w := v.after after
    .answered 2 (.removed (.ok track)) ∈ v.log ∧ ¬v.Lists track ∧
      v.Run (withoutAdding track) after w ∧ w.Quiet ∧
      w.controller.state.queue.items = [track] ∧ v.ComesBack track after w ∧
      v.ReturnsFirst track after := by
  intro track u v after w
  have hrun : blank.Run anyMove _ u := run_after (by decide +kernel)
  have hstage : u.stage? 2 = some (.begin (.remove 0)) := by decide +kernel
  have hindex : u.controller.state.queue.items[0]? = some track := by decide +kernel
  have hmove : u.move? (.advance 2 .go) = some v := move?_eq_some_after (by decide +kernel)
  have hafter : v.Run (withoutAdding track) after w :=
    run_after_of_passes withoutAdding_of_isWithoutAdding (by decide +kernel)
  have hquiet : w.Quiet := show w.inFlight = [] by decide +kernel
  have hitems : w.controller.state.queue.items = [track] := by decide +kernel
  have hnone : v.controller.state.queue.items = [] := by decide +kernel
  obtain ⟨hlog, hiff, hfirst, -⟩ := removed_returns_iff ⟨default, ⟨[], .standard⟩, .empty⟩ 0 [] hrun
    hstage hindex hmove hafter
  have hout : ¬v.Lists track := by
    rintro ⟨item, hitem, -⟩
    rw [hnone] at hitem
    cases hitem
  have hin : w.Lists track := ⟨track, hitems ▸ List.mem_cons_self, by decide +kernel⟩
  refine ⟨hlog, hout, hafter, hquiet, hitems, ?_, hfirst hout hin⟩
  rcases hiff.mp hin with hstays | hback
  · exact absurd hstays.lists hout
  · exact hback

end System

end Jukebox
