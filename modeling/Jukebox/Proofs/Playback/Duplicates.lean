import Jukebox.Proofs.Playback.Order
import Jukebox.Proofs.Playback.Tracks
import Jukebox.Proofs.Queue.Duplicates

/-!
# When the queue holds a track twice

Of all steps only the one that ends a start can make a duplicate, when it copies the description
of the track over an entry of the queue while a second entry is the same as the track.  So a
queue stays without duplicates exactly as long as no such start goes well.  Where the operations
run one after the other and the resolver keeps what a track is known by, a track that a cascade
took from the queue is never of this kind: only a track that somebody asked for, or one that was
taken back from the history, can be (`System.noDuplicates_iff_no_start_doubles`).
-/

namespace Jukebox

/-- The track that a start puts at the head of the queue when it goes well. -/
def Purpose.head? : Purpose → Option PlaybackRecord → Option Track
  | .goBack _ _, some record => some record.track
  | _, _ => none

/-- The cascade took the track from the queue. -/
def Purpose.isSearch : Purpose → Bool
  | .search _ _ => true
  | _ => false

/-- The step ends a start whose track is the same as two entries of the queue. -/
def Stage.Doubles (q : Queue) : Stage → Prop
  | .commit l r displaced => q.Doubles r.track (l.purpose.head? displaced)
  | _ => False

namespace Queue

/-- The queue after the first critical section of a request. -/
theorem NoDuplicates.queueAfter {s : PlaybackState} (h : s.queue.NoDuplicates)
    (request : Request) : (request.queueAfter s).NoDuplicates := by
  cases request with
  | enqueue track => exact h.add _ none
  | addPlaylist tracks => exact h.addAll tracks
  | exchange i j =>
    simp only [Request.queueAfter]
    cases he : s.queue.exchange i j with
    | error e => exact h
    | ok q => exact h.exchange he
  | remove index =>
    simp only [Request.queueAfter]
    cases he : s.queue.remove index with
    | error e => exact h
    | ok removed => exact h.remove he
  | shuffle => exact h.shuffled s.words
  | clear => exact s.queue.noDuplicates_clear
  | restore saved how => exact h.restore saved.tracks how
  | setPlaylist playlist tracks =>
    have hreplaced : (s.queue.restore tracks .replace).NoDuplicates := h.restore tracks .replace
    simp only [Request.queueAfter, PlaybackState.setPlaylist]
    split
    · exact hreplaced.shuffled _
    · exact hreplaced
  | _ => exact h

end Queue

namespace Controller

variable {c d : Controller} {op : Nat} {stage next : Stage} {signal : Signal}

/-! ## One step -/

theorem items_displace (purpose : Purpose) (q : Queue) (track : Track)
    (displaced : Option PlaybackRecord) :
    (displace purpose (q.refresh track) displaced).items =
      (q.renewed track (purpose.head? displaced)).items := by
  cases displaced with
  | none => cases purpose <;> rfl
  | some record => cases purpose <;> rfl

/-- A step keeps the queue without duplicates exactly if it does not end a start whose track is
the same as two entries. -/
theorem Transition.noDuplicates_iff (h : Transition c op stage signal d next)
    (hq : c.state.queue.NoDuplicates) :
    d.state.queue.NoDuplicates ↔ ¬stage.Doubles c.state.queue := by
  have hsame : d.state.queue.items = c.state.queue.items → ¬stage.Doubles c.state.queue →
      (d.state.queue.NoDuplicates ↔ ¬stage.Doubles c.state.queue) :=
    fun hitems hdoubles => iff_of_true ((Queue.noDuplicates_congr hitems).mpr hq) hdoubles
  cases h with
  | @begin request d next told e =>
    have hqueue := begin_queue c op request
    rw [e] at hqueue
    have hd : d.state.queue.NoDuplicates := hqueue ▸ hq.queueAfter request
    exact iff_of_true hd id
  | take h =>
    obtain ⟨taken, htaken, hstate⟩ := Option.map_eq_some_iff.mp h
    cases hstate
    exact iff_of_true (hq.next? htaken) id
  | takeNothing => exact hsame (items_closeCascade _ _) id
  | @giveBack cascade track generation =>
    have hd : (c.state.giveBack track generation).queue.NoDuplicates := by
      unfold PlaybackState.giveBack
      split
      · exact hq.add track (some 0)
      · exact hq
    exact iff_of_true hd id
  | settle => exact hsame (items_closeCascade _ _) id
  | close => exact hsame (items_closeCascade _ _) id
  | takeBack h => exact hsame (Queue.items_takeBack? h) id
  | @commit l r displaced =>
    have hitems := items_displace l.purpose c.state.queue r.track displaced
    exact (Queue.noDuplicates_congr hitems).trans (Queue.noDuplicates_renewed_iff hq)
  | retire => exact hsame (items_retire _) id
  | cancel hstage => cases hstage <;> exact hsame rfl id
  | pauseSet hstage => cases hstage <;> exact hsame rfl id
  | pauseKept hstage => cases hstage <;> exact hsame rfl id
  | _ => exact hsame rfl id

/-- A step with which an operation turns to the start of a track, or goes on with it. -/
inductive Launching (c d : Controller) (l : Launch) : Stage → Signal → Stage → Prop
  /-- A cascade takes the track from the queue. -/
  | turns {stage next : Stage} {signal : Signal} (hresolved : next.resolved? = none)
      (htaken : l.purpose.isSearch = true → c.state.takeNext? = some (l.track, d.state)) :
      Launching c d l stage signal next
  | goesOn {stage next : Stage} {signal : Signal} (hstage : stage.launch? = some l)
      (hqueue : d.state.queue = c.state.queue)
      (hresolved : ∀ r, next.resolved? = some r → stage.resolved? = some r ∨
        r.track = l.track ∨ stage = .resolving l ∧ signal = .resolved (.ok (some r))) :
      Launching c d l stage signal next

theorem Begins.launching {l : Launch} {request : Request} (h : Begins c op d next)
    (hnext : next.launch? = some l) : Launching c d l (.begin request) signal next := by
  cases h with
  | opens frame hended hopens =>
    obtain rfl | rfl | ⟨track, offset, rfl⟩ := hopens
    · cases hnext
    · cases hnext
    · cases hnext
      exact .turns rfl nofun
  | cancels => cases hnext
  | holds frame hholds => obtain rfl | ⟨_, rfl⟩ | ⟨_, rfl⟩ := hholds <;> cases hnext
  | keeps frame hkeeps => obtain rfl | rfl | ⟨_, rfl⟩ := hkeeps <;> cases hnext

theorem Unburdened.launch? {cascade : Cascade} (h : Unburdened cascade stage) :
    stage.launch? = none := by
  cases h <;> rfl

theorem launch?_superseded (l : Launch) : (superseded l).launch? = none := by
  unfold superseded
  cases l.purpose <;> rfl

theorem Transition.launching {l : Launch} (h : Transition c op stage signal d next)
    (hnext : next.launch? = some l) : Launching c d l stage signal next := by
  have hnone : next.launch? = none → Launching c d l stage signal next := by
    intro hnone
    rw [hnone] at hnext
    cases hnext
  cases h with
  | begin e begins => exact begins.launching hnext
  | measure => exact hnone (unburdened_nextAttempt _ _).launch?
  | retry => exact hnone (unburdened_nextAttempt _ _).launch?
  | take h =>
    cases hnext
    exact .turns rfl fun _ => h
  | takeBack h =>
    cases hnext
    exact .turns rfl nofun
  | install =>
    cases hnext
    exact .goesOn rfl rfl fun r hr => .inl hr
  | rollBack => exact hnone (unburdened_failed _ _).launch?
  | commit => exact hnone (unburdened_succeeded _).launch?
  | enter =>
    cases hnext
    exact .goesOn rfl rfl fun r hr => .inl hr
  | refuse => exact hnone (launch?_superseded _)
  | askDirect h =>
    cases hnext
    refine .goesOn rfl rfl fun r hr => .inr (.inl ?_)
    obtain ⟨link, -, hdirect⟩ := Option.map_eq_some_iff.mp h
    cases hr
    exact congrArg ResolvedTrack.track hdirect.symm
  | askResolver =>
    cases hnext
    exact .goesOn rfl rfl nofun
  | cancel hstage => exact hnone (launch?_superseded _)
  | resolve =>
    cases hnext
    refine .goesOn rfl rfl fun r hr => .inr (.inr ⟨rfl, ?_⟩)
    cases hr
    rfl
  | resolveFails => exact hnone (unburdened_failed _ _).launch?
  | startFails =>
    cases hnext
    exact .goesOn rfl rfl nofun
  | started =>
    cases hnext
    exact .goesOn rfl rfl fun r hr => .inl hr
  | startedAtRest =>
    cases hnext
    exact .goesOn rfl rfl fun r hr => .inl hr
  | paused =>
    cases hnext
    exact .goesOn rfl rfl fun r hr => .inl hr
  | _ => exact hnone rfl

end Controller

namespace System

open Track (SameKeys)

variable {s t u : System} {op : Nat} {signal : Signal} {stage next : Stage}
  {told : List PlaybackEvent} {moves : List Move}

/-! ## One operation after the other -/

/-- A request comes in when nothing runs, and the resolver keeps what a track is known by. -/
def inTurn (s : System) : Move → Prop
  | .arrive _ => s.Quiet
  | .advance op signal => ∀ l r, s.stage? op = some (.resolving l) →
      signal = .resolved (.ok (some r)) →
      r.track.remoteId = l.track.remoteId ∧ r.track.directUrl = l.track.directUrl

/-- What holds while one operation runs after the other, on a queue without duplicates. -/
structure Solitary (s : System) : Prop where
  alone : ∀ {op op' stage stage'}, s.stage? op = some stage → s.stage? op' = some stage' →
    op = op'
  resolved : ∀ {op stage l r}, s.stage? op = some stage → stage.launch? = some l →
    stage.resolved? = some r → SameKeys r.track l.track
  /-- Of a track that a cascade took from the queue, at most its own entry is left there. -/
  taken : ∀ {op stage l item}, s.stage? op = some stage → stage.launch? = some l →
    l.purpose.isSearch = true → item ∈ s.controller.state.queue.items →
    item.same l.track = true → SameKeys item l.track

theorem solitary_start (account : Account) (self : Nat) (words : RandomWords) :
    (start (Controller.start account self words)).Solitary where
  alone := fun h => by simp [start, stage?] at h
  resolved := fun h => by simp [start, stage?] at h
  taken := fun h => by simp [start, stage?] at h

theorem solitary_arrive (ho : s.Ordered) (hquiet : s.Quiet) (request : Request) :
    (s.arrive request).Solitary := by
  refine ⟨?_, ?_, ?_⟩
  · intro op op' stage stage' hstage hstage'
    exact (ho.stage?_arrive_of_quiet hquiet hstage).1.trans
      (ho.stage?_arrive_of_quiet hquiet hstage').1.symm
  · intro op stage l r hstage hlaunch
    rw [(ho.stage?_arrive_of_quiet hquiet hstage).2] at hlaunch
    cases hlaunch
  · intro op stage l item hstage hlaunch
    rw [(ho.stage?_arrive_of_quiet hquiet hstage).2] at hlaunch
    cases hlaunch

theorem Solitary.advance (h : s.Solitary) (hq : s.controller.state.queue.NoDuplicates)
    (hallowed : s.inTurn (.advance op signal)) (a : s.Advances t op signal stage next told) :
    t.Solitary := by
  refine ⟨?_, ?_, ?_⟩
  · intro op' op'' stage' stage'' hstage' hstage''
    exact (a.stage?_of_alone h.alone hstage').1.trans
      (a.stage?_of_alone h.alone hstage'').1.symm
  · intro op' stage' l r hstage' hlaunch hresolved
    obtain ⟨rfl, rfl⟩ := a.stage?_of_alone h.alone hstage'
    cases a.transition.launching hlaunch with
    | turns hnone =>
      rw [hnone] at hresolved
      cases hresolved
    | goesOn hstage _ hcases =>
      rcases hcases r hresolved with hbefore | htrack | ⟨rfl, rfl⟩
      · exact h.resolved a.before hstage hbefore
      · rw [htrack]
        exact .refl _
      · obtain ⟨hremote, hdirect⟩ := hallowed l r a.before rfl
        exact ⟨congrArg nonEmpty? hremote, congrArg nonEmpty? hdirect⟩
  · intro op' stage' l item hstage' hlaunch hsearch hitem hsame
    obtain ⟨rfl, rfl⟩ := a.stage?_of_alone h.alone hstage'
    cases a.transition.launching hlaunch with
    | turns _ htaken =>
      obtain ⟨taken, hnext, hstate⟩ := Option.map_eq_some_iff.mp (htaken hsearch)
      obtain ⟨htrack, hstate⟩ := Prod.mk.inj hstate
      rw [← hstate] at hitem
      rw [← htrack] at hsame ⊢
      rw [hq.eq_of_same_next? hnext hitem hsame]
      exact .refl _
    | goesOn hstage hqueue =>
      rw [hqueue] at hitem
      exact h.taken a.before hstage hsearch hitem hsame

/-- A track that a cascade took from the queue is not the same as two of its entries. -/
theorem Solitary.not_doubles {l : Launch} {r : ResolvedTrack} {displaced : Option PlaybackRecord}
    (h : s.Solitary) (hq : s.controller.state.queue.NoDuplicates)
    (hstage : s.stage? op = some (.commit l r displaced)) (hsearch : l.purpose.isSearch = true)
    (head : Option Track) : ¬s.controller.state.queue.Doubles r.track head := by
  rintro ⟨-, second, hsecond, -⟩
  have hkeys : SameKeys r.track l.track := h.resolved hstage rfl rfl
  have hown : ∀ item ∈ s.controller.state.queue.items.filter (·.same r.track),
      SameKeys item l.track := by
    intro item hitem
    obtain ⟨hitem, hsame⟩ := List.mem_filter.mp hitem
    rw [Track.SameKeys.same_eq (.refl item) hkeys] at hsame
    exact h.taken hstage rfl hsearch hitem hsame
  have hpairs := List.Pairwise.filter (·.same r.track) hq
  cases hfilter : s.controller.state.queue.items.filter (·.same r.track) with
  | nil =>
    rw [hfilter] at hsecond
    cases hsecond
  | cons first rest =>
    rw [hfilter] at hsecond hown hpairs
    have hfirst := hown first List.mem_cons_self
    have hother := hown second (List.mem_cons_of_mem _ hsecond)
    have hdiffers : first.Differs second := (List.pairwise_cons.mp hpairs).1 second hsecond
    have hmem : first ∈ s.controller.state.queue.items.filter (·.same r.track) := by
      rw [hfilter]
      exact List.mem_cons_self
    have hself : r.track.same r.track = true := Track.same_self (List.mem_filter.mp hmem).2
    rw [Track.Differs, Track.SameKeys.same_eq hfirst hother,
      ← Track.SameKeys.same_eq hkeys hkeys, hself] at hdiffers
    cases hdiffers

/-! ## A whole run -/

/-- At every moment of the run the queue is without duplicates. -/
def StaysDistinct (s : System) (moves : List Move) : Prop :=
  ∀ before after u, moves = before ++ after → s.Run inTurn before u →
    u.controller.state.queue.NoDuplicates

/-- On the run a start goes well whose track somebody asked for, or was taken back from the
history, and is the same as two entries of the queue. -/
def StartsDouble (s : System) (moves : List Move) : Prop :=
  ∃ before op signal after u l r displaced, moves = before ++ .advance op signal :: after ∧
    s.Run inTurn before u ∧ u.stage? op = some (.commit l r displaced) ∧
    l.purpose.isSearch = false ∧
    u.controller.state.queue.Doubles r.track (l.purpose.head? displaced)

/-- As long as no start doubles an entry the queue stays without duplicates. -/
theorem solitary_of_not_startsDouble {before after : List Move} (hs : s.Solitary)
    (ho : s.Ordered) (hq : s.controller.state.queue.NoDuplicates)
    (hmoves : moves = before ++ after) (hnone : ¬s.StartsDouble moves)
    (run : s.Run inTurn before u) : u.Solitary ∧ u.controller.state.queue.NoDuplicates := by
  induction run generalizing after with
  | nil => exact ⟨hs, hq⟩
  | @snoc before v w m run hallowed hmove ih =>
    rw [List.append_assoc] at hmoves
    obtain ⟨hv, hqv⟩ := ih hmoves
    cases m with
    | arrive request =>
      obtain rfl : v.arrive request = w := by simpa [move?] using hmove
      exact ⟨solitary_arrive (ho.run run) hallowed request, hqv⟩
    | advance op signal =>
      obtain ⟨stage, next, told, a⟩ := advances_of_advance? hmove
      refine ⟨hv.advance hqv hallowed a, (a.transition.noDuplicates_iff hqv).mpr ?_⟩
      intro hdoubles
      cases stage with
      | commit l r displaced =>
        cases hsearch : l.purpose.isSearch with
        | true => exact hv.not_doubles hqv a.before hsearch _ hdoubles
        | false =>
          exact hnone ⟨before, op, signal, after, v, l, r, displaced, hmoves, run, a.before,
            hsearch, hdoubles⟩
      | _ => exact hdoubles

/-- Operations run one after the other, with any answers of a player and of a resolver that
keeps what a track is known by.  Then the queue never holds a track twice, exactly if no track
is started by request, or going back, while it is the same as two entries of the queue. -/
theorem noDuplicates_iff_no_start_doubles (account : Account) (self : Nat) (words : RandomWords)
    (run : (start (Controller.start account self words)).Run inTurn moves t) :
    (start (Controller.start account self words)).StaysDistinct moves ↔
      ¬(start (Controller.start account self words)).StartsDouble moves := by
  constructor
  · rintro hdistinct ⟨before, op, signal, after, u, l, r, displaced, hmoves, hbefore, hstage, -,
      hdoubles⟩
    have hqu := hdistinct before (.advance op signal :: after) u hmoves hbefore
    subst hmoves
    obtain ⟨v, hallowed, hmove, -⟩ := run.next hbefore
    have hqv := hdistinct (before ++ [.advance op signal]) after v (by simp)
      (hbefore.snoc hallowed hmove)
    obtain ⟨stage, next, told, a⟩ := advances_of_advance? hmove
    obtain rfl := Option.some.inj (hstage.symm.trans a.before)
    exact (a.transition.noDuplicates_iff hqu).mp hqv hdoubles
  · rintro hnone before after u hmoves hbefore
    have hstart : (start (Controller.start account self words)).controller.state.queue.NoDuplicates :=
      List.Pairwise.nil
    exact (solitary_of_not_startsDouble (solitary_start account self words)
      (ordered_start account self words) hstart hmoves hnone hbefore).2

/-- Nothing runs where a request comes in, and the resolver is not asked. -/
def isInTurn (s : System) : Move → Bool
  | .arrive _ => s.inFlight.isEmpty
  | .advance _ (.resolved _) => false
  | .advance _ _ => true

theorem inTurn_of_isInTurn (v : System) (m : Move) (h : v.isInTurn m = true) : v.inTurn m := by
  cases m with
  | arrive request => exact List.isEmpty_iff.mp h
  | advance op signal =>
    intro l r _ hsignal
    subst hsignal
    cases h

/-- While a track plays, another is added by its catalog number and a third by its link; then
somebody asks for a track that has both. -/
theorem noDuplicates_iff_no_start_doubles_of_playTrack :
    let both : Track := { Track.remote "a" with directUrl := some "l" }
    let moves : List Move := .arrive (.enqueue (.direct "x")) :: goes 0 6 ++
      .advance 0 (.played (.ok ())) :: goes 0 3 ++ .arrive (.enqueue (.remote "a")) ::
      goes 1 1 ++ .arrive (.enqueue (.direct "l")) :: goes 2 1 ++
      .arrive (.playTrack both none) :: goes 3 4 ++ .advance 3 (.played (.ok ())) :: goes 3 2
    let t := blank.after moves
    blank.Run inTurn moves t ∧ t.Quiet ∧
      t.controller.state.queue.items =
        [both, { Track.direct "l" with inPlaylist := true }] ∧
      ¬t.controller.state.queue.NoDuplicates ∧ blank.StartsDouble moves := by
  intro both moves t
  have hrun : blank.Run inTurn moves t :=
    run_after_of_passes inTurn_of_isInTurn (by decide +kernel)
  have hquiet : t.inFlight = [] := by decide +kernel
  have hitems : t.controller.state.queue.items =
      [both, { Track.direct "l" with inPlaylist := true }] := by decide +kernel
  have htwice : ¬t.controller.state.queue.NoDuplicates := by decide +kernel
  have hiff := noDuplicates_iff_no_start_doubles ⟨default, ⟨[], .standard⟩, .empty⟩ 0 [] hrun
  refine ⟨hrun, hquiet, hitems, htwice, ?_⟩
  by_contra hnone
  exact htwice (hiff.mpr hnone moves [] t (List.append_nil _).symm hrun)

end System

end Jukebox
