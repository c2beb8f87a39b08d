import Jukebox.Proofs.Playback.Effect
import Jukebox.Proofs.Queue.Identity

/-!
# What becomes of the tracks in one step

The state holds tracks in the queue, in the history and in the record, and an operation holds
those that it has taken and not yet given on.  A step hands on all that it touches
(`Controller.Transition.handsOn`), but for those tracks that `Controller.Releases` and
`Controller.Outlives` list.
-/

namespace Jukebox

namespace Request

/-- The track that a request asks to start. -/
def launched : Request → List Track
  | .playTrack track _ => [track]
  | _ => []

/-- The tracks that a request brings for the queue. -/
def queued : Request → List Track
  | .enqueue track => [track]
  | .restore saved _ => saved.tracks
  | .setPlaylist _ tracks | .addPlaylist tracks => tracks
  | _ => []

/-- The request takes tracks out of the queue for good. -/
def Discards : Request → Prop
  | .remove _ | .clear | .restore _ .replace | .setPlaylist _ _ => True
  | _ => False

end Request

/-- The tracks that the state holds. -/
def PlaybackState.tracks (s : PlaybackState) : List Track :=
  s.queue.tracks ++ s.record.toList.map PlaybackRecord.track

namespace Stage

/-- The track that is being started. -/
def launch? : Stage → Option Launch
  | .ask l | .resolving l | .admission l _ | .install l _ _ | .starting l _ _ _
  | .pausing l _ _ | .rollBack l _ _ | .commit l _ _ => some l
  | _ => none

/-- The track as it was resolved. -/
def resolved? : Stage → Option ResolvedTrack
  | .admission _ r | .install _ r _ | .starting _ r _ _ | .pausing _ r _
  | .commit _ r _ => some r
  | _ => none

/-- The tracks that an operation holds: the one that it starts, or gives back, and the one that
it has displaced. -/
def tracks : Stage → List Track
  | .giveBack _ track _ | .putBack _ track => [track]
  | .ask l | .resolving l => [l.track]
  | .admission l r | .install l r _ => [l.track, r.track]
  | .starting l r displaced _ | .pausing l r displaced | .commit l r displaced =>
    l.track :: r.track :: displaced.toList.map PlaybackRecord.track
  | .rollBack l displaced _ => l.track :: displaced.toList.map PlaybackRecord.track
  | _ => []

/-- The tracks that an operation brings when it begins. -/
def brought : Stage → List Track
  | .begin request => request.launched ++ request.queued
  | _ => []

end Stage

namespace Controller

variable {c d : Controller} {op : Nat} {stage next : Stage} {signal : Signal} {i : Identity}

/-- The steps in which an identity may be let go. -/
inductive Releases (c : Controller) : Stage → Signal → Controller → Identity → Prop
  /-- Somebody asked for it. -/
  | discards {request : Request} {signal : Signal} {d : Controller} {i : Identity}
      (h : request.Discards) : Releases c (.begin request) signal d i
  /-- The track cannot be resolved. -/
  | unresolved {l : Launch} {reply : Except Error (Option ResolvedTrack)} {d : Controller}
      {i : Identity} (hreply : ∀ r, reply ≠ .ok (some r)) (hown : l.track.identity? = some i) :
      Releases c (.resolving l) (.resolved reply) d i
  /-- The player has refused the track. -/
  | refused {l : Launch} {displaced : Option PlaybackRecord} {e : Error} {signal : Signal}
      {d : Controller} {i : Identity} (hown : l.track.identity? = some i) :
      Releases c (.rollBack l displaced e) signal d i
  /-- Somebody asked for this very track, and then for something else. -/
  | overtaken {stage : Stage} {l : Launch} {cascade : Cascade} {signal : Signal}
      {d : Controller} {i : Identity}
      (hstage : Interruptible l stage ∨ ∃ r, stage = .admission l r)
      (hpurpose : l.purpose = .request cascade) (htoken : l.token ≠ c.token)
      (hown : l.track.identity? = some i) : Releases c stage signal d i
  /-- The queue was replaced since the track was taken from it. -/
  | outdated {cascade : Cascade} {track : Track} {generation : Nat} {signal : Signal}
      {d : Controller} {i : Identity} (hgeneration : c.state.generation ≠ generation)
      (hown : track.identity? = some i) : Releases c (.giveBack cascade track generation) signal d i
  /-- One more track is remembered, and an older one than the limit allows is forgotten. -/
  | evicted {stage : Stage} {signal : Signal} {d : Controller} {played old : Track}
      {i : Identity}
      (hhistory : d.state.queue.history =
        (played :: c.state.queue.history).take Queue.historyLimit)
      (hold : old ∈ (played :: c.state.queue.history).drop Queue.historyLimit)
      (hown : old.identity? = some i) : Releases c stage signal d i

/-- A start has gone well, and the record that it made is no longer there. -/
inductive Outlives (c : Controller) : Stage → Identity → Prop
  | commit {l : Launch} {r : ResolvedTrack} {displaced : Option PlaybackRecord} {i : Identity}
      (hrecord : c.state.record = none) (hown : l.track.identity? = some i) :
      Outlives c (.commit l r displaced) i

/-! ## What the critical sections hand on -/

open Queue (Forgets)

theorem carries_queue {s : PlaybackState} {q : Queue} {before after : List Track}
    (h : Carries (before ++ s.queue.tracks) (after ++ q.tracks)) :
    Carries (before ++ s.tracks) (after ++ { s with queue := q }.tracks) := by
  have hall := h.append (.refl (s.record.toList.map PlaybackRecord.track))
  simpa only [PlaybackState.tracks, List.append_assoc] using hall

theorem carries_retire (s : PlaybackState) :
    ∃ lost, Carries s.tracks (lost ++ s.retire.tracks) ∧
      Forgets s.queue s.retire.queue lost := by
  unfold PlaybackState.retire
  cases hrecord : s.record with
  | none => exact ⟨[], .refl _, .nothing⟩
  | some record =>
    refine ⟨_, ?_, .oldest record.track rfl⟩
    refine (s.queue.carries_remember record.track).congr ?_ ?_
    · simp [PlaybackState.tracks, hrecord, or_comm]
    · simp [PlaybackState.tracks]

theorem carries_closeCascade (s : PlaybackState) (cascade : Cascade) :
    ∃ lost, Carries s.tracks (lost ++ (s.closeCascade cascade).tracks) ∧
      Forgets s.queue (s.closeCascade cascade).queue lost := by
  rcases s.closeCascade_cases cascade with ⟨-, heq⟩ | ⟨-, heq⟩
  · rw [heq]
    have hretire := carries_retire
      { s with cascade := if s.cascade = some cascade.id then none else s.cascade }
    exact hretire
  · rw [heq]
    exact ⟨[], .refl _, .nothing⟩

theorem carries_displace (purpose : Purpose) (q : Queue) (displaced : Option PlaybackRecord) :
    ∃ lost, Carries (displaced.toList.map PlaybackRecord.track ++ q.tracks)
        (lost ++ (displace purpose q displaced).tracks) ∧
      Forgets q (displace purpose q displaced) lost := by
  cases displaced with
  | none => exact ⟨[], .refl _, .nothing⟩
  | some record =>
    cases purpose with
    | goBack cascade attempts => exact ⟨[], q.carries_add record.track _, .nothing⟩
    | _ => exact ⟨_, q.carries_remember record.track, .oldest record.track rfl⟩

theorem carries_setPlaylist (s : PlaybackState) (playlist : PlaylistMeta)
    (tracks : List Track) :
    Carries (tracks ++ s.queue.tracks)
      (s.queue.items ++ (s.setPlaylist playlist tracks).queue.tracks) := by
  have hreplace := s.queue.carries_replace tracks
  by_cases hrandom : s.mode.mode.isRandom = true
  · simp only [PlaybackState.setPlaylist, hrandom, if_true]
    exact hreplace.trans ((Carries.refl _).append (Queue.carries_shuffled _ s.words))
  · simp only [PlaybackState.setPlaylist, hrandom]
    exact hreplace

/-- The queue takes in the tracks that a request brings for it. -/
theorem carries_queueAfter (s : PlaybackState) (request : Request) :
    ∃ lost, Carries (request.queued ++ s.queue.tracks)
        (lost ++ (request.queueAfter s).tracks) ∧ (lost = [] ∨ request.Discards) := by
  have hkept : ∀ {after : List Track}, Carries (request.queued ++ s.queue.tracks) after →
      ∃ lost, Carries (request.queued ++ s.queue.tracks) (lost ++ after) ∧
        (lost = [] ∨ request.Discards) := fun hafter => ⟨[], hafter, .inl rfl⟩
  cases request with
  | enqueue track =>
    exact hkept ((Carries.relabel (track.identity?_inPlaylist true)).trans
      (s.queue.carries_add { track with inPlaylist := true } none))
  | addPlaylist tracks => exact hkept (s.queue.carries_addAll tracks)
  | exchange i j =>
    cases hexchange : s.queue.exchange i j with
    | error e =>
      simp only [Request.queueAfter, hexchange]
      exact hkept (.refl _)
    | ok q =>
      simp only [Request.queueAfter, hexchange]
      exact hkept (Queue.carries_exchange hexchange)
  | remove index =>
    cases hremove : s.queue.remove index with
    | error e =>
      simp only [Request.queueAfter, hremove]
      exact hkept (.refl _)
    | ok removed =>
      simp only [Request.queueAfter, hremove]
      exact ⟨[removed.1], Queue.carries_remove hremove, .inr trivial⟩
  | shuffle => exact hkept (s.queue.carries_shuffled s.words)
  | clear => exact ⟨s.queue.items, s.queue.carries_clear, .inr trivial⟩
  | restore saved how =>
    cases how with
    | append => exact hkept (s.queue.carries_addAll saved.tracks)
    | replace => exact ⟨s.queue.items, s.queue.carries_replace saved.tracks, .inr trivial⟩
  | setPlaylist playlist tracks =>
    exact ⟨s.queue.items, carries_setPlaylist s playlist tracks, .inr trivial⟩
  | _ => exact hkept (.refl _)

theorem tracks_beginIfIdle (c : Controller) : c.beginIfIdle.2.tracks = [] := by
  unfold beginIfIdle
  split <;> rfl

theorem tracks_signalled (c : Controller) (serial : Nat) (told : Track → List PlaybackEvent) :
    (c.signalled serial told).2.1.tracks = [] := by
  unfold signalled
  split
  · split <;> rfl
  · rfl

theorem tracks_begin (c : Controller) (op : Nat) (request : Request) :
    (c.begin op request).2.1.tracks = request.launched := by
  cases request with
  | play =>
    simp only [begin]
    split
    · split <;> rfl
    · rfl
  | enqueue track => exact tracks_beginIfIdle _
  | addPlaylist tracks => exact tracks_beginIfIdle _
  | stop bySystem => cases bySystem <;> rfl
  | ended serial => exact tracks_signalled c serial _
  | failed serial reason => exact tracks_signalled c serial _
  | togglePause =>
    simp only [begin]
    split <;> rfl
  | presence event roster =>
    simp only [begin]
    split
    · split <;> rfl
    · rfl
  | exchange i j =>
    simp only [begin]
    split <;> rfl
  | remove index =>
    simp only [begin]
    split <;> rfl
  | _ => rfl

/-! ## What one step hands on -/

/-- What an operation knows of its track is about this very track, and so is the record that
it has made. -/
def Steady (stage : Stage) (record : Option PlaybackRecord) : Prop :=
  ∀ l, stage.launch? = some l →
    (∀ r, stage.resolved? = some r → r.track.identity? = l.track.identity?) ∧
    (stage.isLaunched = true → ∀ made, record = some made →
      made.track.identity? = l.track.identity?)

/-- The resolver answers with a description of the track that it was asked for. -/
def Faithful (stage : Stage) (signal : Signal) : Prop :=
  ∀ l r, stage = .resolving l → signal = .resolved (.ok (some r)) →
    r.track.identity? = l.track.identity?

/-- All tracks are handed on, but for those that the step lets go. -/
def HandsOn (c : Controller) (stage : Stage) (signal : Signal) (d : Controller) (next : Stage) :
    Prop :=
  ∃ lost, Carries (stage.brought ++ stage.tracks ++ c.state.tracks)
      (lost ++ next.tracks ++ d.state.tracks) ∧
    ∀ track ∈ lost, ∀ i, track.identity? = some i → Releases c stage signal d i ∨ Outlives c stage i

theorem handsOn_of_carries
    (h : Carries (stage.brought ++ stage.tracks ++ c.state.tracks)
      (next.tracks ++ d.state.tracks)) : HandsOn c stage signal d next :=
  ⟨[], h, by simp⟩

theorem handsOn_of_forgets {lost : List Track} (hnext : next.tracks = [])
    (h : Carries (stage.brought ++ stage.tracks ++ c.state.tracks) (lost ++ d.state.tracks))
    (hlost : Forgets c.state.queue d.state.queue lost) : HandsOn c stage signal d next := by
  refine ⟨lost, by rw [hnext, List.append_nil]; exact h, ?_⟩
  intro track htrack i hi
  cases hlost with
  | nothing => cases htrack
  | oldest played hhistory => exact .inl (.evicted hhistory htrack hi)

theorem handsOn_closeCascade {cascade : Cascade} (hstage : stage.brought ++ stage.tracks = [])
    (hnext : next.tracks = []) :
    HandsOn c stage signal (c.update (·.closeCascade cascade)) next := by
  obtain ⟨lost, hcarries, hlost⟩ := carries_closeCascade c.state cascade
  exact handsOn_of_forgets hnext (by rw [hstage]; exact hcarries) hlost

theorem Unburdened.tracks {cascade : Cascade} (h : Unburdened cascade stage) :
    stage.tracks = [] := by
  cases h <;> rfl

theorem handsOn_begin {request : Request} (e : c.begin op request = (d, next, told))
    (hrecord : d.state.record = c.state.record) :
    HandsOn c (.begin request) signal d next := by
  obtain ⟨lost, hcarries, hlost⟩ := carries_queueAfter c.state request
  have hqueue := begin_queue c op request
  have htracks := tracks_begin c op request
  rw [e] at hqueue htracks
  refine ⟨lost, ?_, ?_⟩
  · have hall := hcarries.append (.refl (request.launched ++
      c.state.record.toList.map PlaybackRecord.track))
    refine hall.congr ?_ ?_
    · simp only [PlaybackState.tracks, Stage.tracks, Stage.brought, List.mem_append]
      grind
    · simp only [PlaybackState.tracks, ← hqueue, htracks, hrecord, List.mem_append]
      grind
  · intro track htrack i hi
    rcases hlost with rfl | hdiscards
    · cases htrack
    · exact .inl (.discards hdiscards)

theorem handsOn_superseded {l : Launch}
    (hstage : Interruptible l stage ∨ ∃ r, stage = .admission l r)
    (hsteady : Steady stage c.state.record) (htoken : l.token ≠ c.token) :
    HandsOn c stage signal c (superseded l) := by
  have htracks : stage.brought = [] ∧ l.track ∈ stage.tracks ∧
      ∀ track ∈ stage.tracks, track.identity? = l.track.identity? := by
    rcases hstage with ⟨⟨⟩⟩ | ⟨r, rfl⟩
    · simp [Stage.brought, Stage.tracks]
    · simp [Stage.brought, Stage.tracks]
    · simp [Stage.brought, Stage.tracks, (hsteady l rfl).1 r rfl]
  obtain ⟨hbrought, hmem, hown⟩ := htracks
  have hmerge : Carries (stage.brought ++ stage.tracks ++ c.state.tracks)
      ([l.track] ++ c.state.tracks) := by
    rw [hbrought]
    exact (Carries.merge hmem hown).append (.refl _)
  cases hpurpose : l.purpose with
  | search search generation =>
    simp only [superseded, hpurpose]
    exact handsOn_of_carries hmerge
  | goBack cascade attempts =>
    simp only [superseded, hpurpose]
    exact handsOn_of_carries hmerge
  | request cascade =>
    simp only [superseded, hpurpose]
    refine ⟨[l.track], hmerge, ?_⟩
    intro track htrack i hi
    obtain rfl := List.mem_singleton.mp htrack
    exact .inl (.overtaken hstage hpurpose htoken hi)

theorem handsOn_giveBack {cascade : Cascade} {track : Track} {generation : Nat} :
    HandsOn c (.giveBack cascade track generation) signal
      (c.update (·.giveBack track generation)) (.close cascade (.ok .superseded) none) := by
  by_cases hgeneration : c.state.generation = generation
  · refine handsOn_of_carries ?_
    simp only [update, PlaybackState.giveBack, hgeneration, if_true]
    exact @carries_queue c.state _ [track] []
      (c.state.queue.carries_add track (some 0))
  · refine ⟨[track], ?_, ?_⟩
    · simp only [update, PlaybackState.giveBack, hgeneration, if_false]
      exact .refl _
    · intro other hother i hi
      obtain rfl := List.mem_singleton.mp hother
      exact .inl (.outdated hgeneration hi)

/-- A start that fails lets go its own track, of which its record was made. -/
theorem handsOn_rollBack {l : Launch} {displaced : Option PlaybackRecord} {e : Error}
    (hsteady : Steady (.rollBack l displaced e) c.state.record) (hnext : next.tracks = [])
    (hd : d.state = { c.state with record := displaced }) :
    HandsOn c (.rollBack l displaced e) signal d next := by
  refine ⟨l.track :: c.state.record.toList.map PlaybackRecord.track, ?_, ?_⟩
  · refine (Carries.refl _).congr (fun _ => .rfl) ?_
    rw [hnext, hd]
    simp only [PlaybackState.tracks, Stage.tracks, Stage.brought, List.mem_append,
      List.mem_cons]
    grind
  · intro track htrack i hi
    rcases List.mem_cons.mp htrack with rfl | htrack
    · exact .inl (.refused hi)
    · obtain ⟨made, hmade, rfl⟩ := List.mem_map.mp htrack
      have hown := (hsteady l rfl).2 rfl made (Option.mem_toList.mp hmade)
      exact .inl (.refused (hown.symm.trans hi))

/-- A start that goes well leaves its track to the record that it has made. -/
theorem handsOn_commit {l : Launch} {r : ResolvedTrack} {displaced : Option PlaybackRecord}
    (hsteady : Steady (.commit l r displaced) c.state.record) (hnext : next.tracks = [])
    (hd : d.state = { c.state with
      queue := displace l.purpose (c.state.queue.refresh r.track) displaced }) :
    HandsOn c (.commit l r displaced) signal d next := by
  obtain ⟨lost, hcarries, hlost⟩ :=
    carries_displace l.purpose (c.state.queue.refresh r.track) displaced
  have hforgets : Forgets c.state.queue d.state.queue lost := by
    rw [hd]
    cases hlost with
    | nothing => exact .nothing
    | oldest played hhistory => exact .oldest played hhistory
  obtain ⟨hresolved, hmade⟩ := hsteady l rfl
  have hown := hresolved r rfl
  -- The description from the resolver goes into the queue, the displaced track after it.
  have hall : Carries (Stage.tracks (.commit l r displaced) ++ c.state.tracks)
      (l.track :: r.track :: lost ++ d.state.tracks) := by
    have hqueue : Carries
        (displaced.toList.map PlaybackRecord.track ++ r.track :: c.state.queue.tracks)
        (r.track :: (lost ++ d.state.queue.tracks)) := by
      have hrefresh := (Carries.refl (displaced.toList.map PlaybackRecord.track)).append
        (c.state.queue.carries_refresh r.track)
      have hdisplace := (Carries.refl [r.track]).append hcarries
      rw [hd]
      exact hrefresh.trans (hdisplace.congr (by simp; grind) (by simp))
    have hrecord := ((Carries.refl [l.track]).append hqueue).append
      (.refl (c.state.record.toList.map PlaybackRecord.track))
    refine hrecord.congr ?_ ?_
    · simp only [Stage.tracks, PlaybackState.tracks, List.mem_append, List.mem_cons]
      grind
    · simp only [hd, PlaybackState.tracks, List.mem_append, List.mem_cons]
      grind
  cases hrecord : c.state.record with
  | none =>
    refine ⟨l.track :: r.track :: lost, by rw [hnext, List.append_nil]; exact hall, ?_⟩
    intro track htrack i hi
    rcases List.mem_cons.mp htrack with rfl | htrack
    · exact .inr (.commit hrecord hi)
    · rcases List.mem_cons.mp htrack with rfl | htrack
      · exact .inr (.commit hrecord (hown.symm.trans hi))
      · cases hforgets with
        | nothing => cases htrack
        | oldest played hhistory => exact .inl (.evicted hhistory htrack hi)
  | some made =>
    have heq := hmade rfl made hrecord
    have hmem : made.track ∈ d.state.tracks := by simp [hd, PlaybackState.tracks, hrecord]
    refine handsOn_of_forgets hnext (hall.trans ?_) hforgets
    have hmem' : made.track ∈ lost ++ d.state.tracks := List.mem_append_right _ hmem
    exact (Carries.absorb heq (List.mem_cons_of_mem _ hmem')).trans
      (.absorb (heq.trans hown.symm) hmem')

/-- Every step hands on the tracks that it touches, but for those that it lets go. -/
theorem Transition.handsOn (h : Transition c op stage signal d next)
    (hsteady : Steady stage c.state.record) (hfaithful : Faithful stage signal) :
    HandsOn c stage signal d next := by
  cases h with
  | begin e begins => exact handsOn_begin e begins.frame.2.2
  | @measure cascade search =>
    have hnext := (unburdened_nextAttempt c search).tracks
    exact handsOn_of_carries (by rw [hnext]; exact .refl _)
  | @retry search =>
    have hnext := (unburdened_nextAttempt c search).tracks
    exact handsOn_of_carries (by rw [hnext]; exact .refl _)
  | @take search track state h =>
    obtain ⟨taken, htaken, hstate⟩ := Option.map_eq_some_iff.mp h
    cases hstate
    exact handsOn_of_carries ((Queue.carries_next? htaken).append (.refl _))
  | takeNothing => exact handsOn_closeCascade rfl rfl
  | giveBack => exact handsOn_giveBack
  | settle => exact handsOn_closeCascade rfl rfl
  | close => exact handsOn_closeCascade rfl rfl
  | takeBack h => exact handsOn_of_carries ((Queue.carries_takeBack? h).append (.refl _))
  | takeBackNothing e h => exact handsOn_of_carries (.refl _)
  | @putBack cascade track =>
    exact handsOn_of_forgets rfl
      (@carries_queue c.state _ [track] _ (c.state.queue.carries_remember track))
      (.oldest track rfl)
  | @install l r serial =>
    refine handsOn_of_carries ((Carries.refl _).congr (fun _ => .rfl) ?_)
    simp only [update, PlaybackState.newRecord, PlaybackState.tracks, Stage.tracks,
      Stage.brought, List.mem_append, List.mem_cons, Option.toList_some, List.map_cons]
    grind
  | rollBack => exact handsOn_rollBack hsteady (unburdened_failed _ _).tracks rfl
  | commit => exact handsOn_commit hsteady (unburdened_succeeded _).tracks rfl
  | cancelPending => exact handsOn_of_carries (.refl _)
  | retire =>
    obtain ⟨lost, hcarries, hlost⟩ := carries_retire c.state
    exact handsOn_of_forgets rfl hcarries hlost
  | enter => exact handsOn_of_carries (.refl _)
  | refuse htoken => exact handsOn_superseded (.inr ⟨_, rfl⟩) hsteady htoken
  | enterToStop => exact handsOn_of_carries (.refl _)
  | @askDirect l r h =>
    obtain ⟨link, -, rfl⟩ := Option.map_eq_some_iff.mp h
    exact handsOn_of_carries (.add rfl List.mem_cons_self)
  | askResolver => exact handsOn_of_carries (.refl _)
  | cancel hstage htoken => exact handsOn_superseded (.inl hstage) hsteady htoken
  | @resolve l r =>
    have hadd : Carries ([l.track] ++ c.state.tracks) (r.track :: [l.track] ++ c.state.tracks) :=
      .add (hfaithful l r rfl rfl) List.mem_cons_self
    exact handsOn_of_carries (hadd.trans (.of_perm (List.Perm.swap _ _ _)))
  | @resolveFails l reply hreply e =>
    refine ⟨[l.track], ?_, ?_⟩
    · rw [(unburdened_failed l e).tracks]
      exact .refl _
    · intro track htrack i hi
      obtain rfl := List.mem_singleton.mp htrack
      exact .inl (.unresolved hreply hi)
  | @startFails l r displaced paused e =>
    have hown := (hsteady l rfl).1 r rfl
    have hswap := Carries.of_perm (List.Perm.swap r.track l.track
      (displaced.toList.map PlaybackRecord.track ++ c.state.tracks))
    exact handsOn_of_carries (hswap.trans (.absorb hown.symm List.mem_cons_self))
  | started => exact handsOn_of_carries (.refl _)
  | startedAtRest => exact handsOn_of_carries (.refl _)
  | paused => exact handsOn_of_carries (.refl _)
  | halted => exact handsOn_of_carries (.refl _)
  | pauseSet hstage paused answer =>
    have htracks : (c.state.setPaused paused).tracks = c.state.tracks := by
      unfold PlaybackState.setPaused PlaybackState.tracks
      cases c.state.record <;> rfl
    refine handsOn_of_carries ?_
    cases hstage <;> exact htracks ▸ Carries.refl c.state.tracks
  | pauseKept hstage => cases hstage <;> exact handsOn_of_carries (.refl _)

/-! ## What an operation knows of its track -/

theorem steady_of_unlaunched {record : Option PlaybackRecord} (hresolved : stage.resolved? = none)
    (hlaunched : stage.isLaunched = false) : Steady stage record := by
  intro l _
  constructor
  · intro r hr
    rw [hresolved] at hr
    cases hr
  · intro h
    rw [hlaunched] at h
    cases h

/-- Where a request leads, the operation knows nothing yet and brings nothing more. -/
theorem Begins.unresolved (h : Begins c op d next) :
    next.resolved? = none ∧ next.brought = [] := by
  cases h with
  | opens frame hended hnext => obtain rfl | rfl | ⟨_, _, rfl⟩ := hnext <;> exact ⟨rfl, rfl⟩
  | cancels => exact ⟨rfl, rfl⟩
  | holds frame hnext => obtain rfl | ⟨_, rfl⟩ | ⟨_, rfl⟩ := hnext <;> exact ⟨rfl, rfl⟩
  | keeps frame hnext => obtain rfl | rfl | ⟨_, rfl⟩ := hnext <;> exact ⟨rfl, rfl⟩

theorem Unburdened.steady {cascade : Cascade} {record : Option PlaybackRecord}
    (h : Unburdened cascade stage) : Steady stage record := by
  cases h <;> exact steady_of_unlaunched rfl rfl

theorem steady_superseded (l : Launch) {record : Option PlaybackRecord} :
    Steady (superseded l) record := by
  unfold superseded
  cases l.purpose <;> exact steady_of_unlaunched rfl rfl

/-- What an operation knows of its track stays right in a step of its own. -/
theorem Transition.steady (h : Transition c op stage signal d next)
    (hsteady : Steady stage c.state.record) (hfaithful : Faithful stage signal) :
    Steady next d.state.record := by
  -- The start goes on, and the record is what it was.
  have hgoes : ∀ {l : Launch} {stage' : Stage}, stage.launch? = some l → stage'.launch? = some l →
      (∀ r, stage'.resolved? = some r → stage.resolved? = some r) →
      (stage'.isLaunched = true → stage.isLaunched = true) → Steady stage' c.state.record := by
    intro l stage' hlaunch hlaunch' hresolved hlaunched l' hl'
    obtain rfl := Option.some.inj (hlaunch'.symm.trans hl')
    obtain ⟨hown, hmade⟩ := hsteady l hlaunch
    exact ⟨fun r hr => hown r (hresolved r hr), fun h => hmade (hlaunched h)⟩
  cases h with
  | begin e begins =>
    exact steady_of_unlaunched begins.unresolved.1 (Stage.isLaunched_eq_false begins.isInside)
  | measure => exact (unburdened_nextAttempt c _).steady
  | retry => exact (unburdened_nextAttempt c _).steady
  | @install l r serial =>
    intro l' hl'
    obtain rfl : l = l' := Option.some.inj hl'
    have hown := (hsteady l rfl).1
    refine ⟨hown, ?_⟩
    rintro - made hmade
    obtain rfl := Option.some.inj hmade
    exact hown r rfl
  | rollBack => exact (unburdened_failed _ _).steady
  | commit => exact (unburdened_succeeded _).steady
  | refuse => exact steady_superseded _
  | cancel => exact steady_superseded _
  | resolveFails => exact (unburdened_failed _ _).steady
  | enter => exact hgoes rfl rfl (fun _ hr => hr) fun h => h
  | @askDirect l r hdirect =>
    obtain ⟨link, -, rfl⟩ := Option.map_eq_some_iff.mp hdirect
    intro l' hl'
    obtain rfl : l = l' := Option.some.inj hl'
    refine ⟨?_, nofun⟩
    intro r hr
    obtain rfl := Option.some.inj hr
    rfl
  | @resolve l r =>
    intro l' hl'
    obtain rfl : l = l' := Option.some.inj hl'
    refine ⟨?_, nofun⟩
    intro r' hr'
    obtain rfl : r = r' := Option.some.inj hr'
    exact hfaithful l r rfl rfl
  | startFails => exact hgoes rfl rfl nofun fun _ => rfl
  | started => exact hgoes rfl rfl (fun _ hr => hr) fun h => h
  | startedAtRest => exact hgoes rfl rfl (fun _ hr => hr) fun h => h
  | paused => exact hgoes rfl rfl (fun _ hr => hr) fun h => h
  | _ => exact steady_of_unlaunched rfl rfl

/-- An operation brings tracks only when it comes in. -/
theorem Transition.brought (h : Transition c op stage signal d next) : next.brought = [] := by
  have hidle : ∀ {cascade : Cascade} {stage : Stage}, Unburdened cascade stage →
      stage.brought = [] := by
    intro cascade stage h
    cases h <;> rfl
  have hsuperseded : ∀ l : Launch, (superseded l).brought = [] := by
    intro l
    unfold superseded
    cases l.purpose <;> rfl
  cases h with
  | begin e begins => exact begins.unresolved.2
  | measure => exact hidle (unburdened_nextAttempt c _)
  | retry => exact hidle (unburdened_nextAttempt c _)
  | rollBack => exact hidle (unburdened_failed _ _)
  | commit => exact hidle (unburdened_succeeded _)
  | refuse => exact hsuperseded _
  | cancel => exact hsuperseded _
  | resolveFails => exact hidle (unburdened_failed _ _)
  | _ => rfl

end Controller

end Jukebox
