import Jukebox.Proofs.Playback.Attempts
import Jukebox.Proofs.Playback.Completion
import Jukebox.Proofs.Queue.Duplicates

/-!
# What asking for the next track comes to

Outside the random loop a cascade that runs alone tries the tracks of the queue in their order.
The first one that plays becomes the current track, and those that were tried before it leave the
queue with it, or go to its end in a loop (`Controller.playNext_of_ne_randomLoop`).
-/

namespace Jukebox

namespace Outside

/-- The resolver fills in the description of a track and leaves alone what the track is known
by. -/
def KeepsKeys (o : Outside) : Prop :=
  ∀ track r, o.resolver track = .ok (some r) → r.track.SameKeys track

variable {o : Outside} {track : Track} {r : ResolvedTrack}

theorem source?_of_plays? (h : o.plays? track = some r) : o.source? track = some r := by
  unfold plays? at h
  split at h
  · next found hsource =>
    split at h
    · rwa [hsource]
    · cases h
  · cases h

theorem KeepsKeys.sameKeys (hkeeps : o.KeepsKeys) (h : o.plays? track = some r) :
    r.track.SameKeys track := by
  have hsource := source?_of_plays? h
  unfold source? at hsource
  split at hsource
  · cases hsource
    exact .refl track
  · split at hsource
    · next found hreply =>
      subst hsource
      exact hkeeps track r hreply
    · cases hsource

/-- A resolver that only looks up where a track streams from. -/
theorem keepsKeys_of_sameTrack (streamUrl : Track → String)
    (player : PlaybackSource → Except Error Unit) :
    KeepsKeys ⟨fun track => .ok (some ⟨track, streamUrl track⟩), player⟩ := by
  intro track r hreply
  cases hreply
  exact .refl track

/-- Only one track is the first that plays. -/
theorem first_unique {before after before' after' : List Track} {track' : Track}
    (h : before ++ track :: after = before' ++ track' :: after')
    (hbefore : ∀ other ∈ before, o.plays? other = none) (hplays : o.plays? track ≠ none)
    (hbefore' : ∀ other ∈ before', o.plays? other = none) (hplays' : o.plays? track' ≠ none) :
    before = before' ∧ track = track' ∧ after = after' := by
  have hfirst : ∀ {skipped later : List Track} {first : Track},
      (∀ other ∈ skipped, o.plays? other = none) → o.plays? first ≠ none →
        (skipped ++ first :: later).takeWhile (fun other => (o.plays? other).isNone) = skipped := by
    intro skipped later first hskipped hfirst
    rw [List.takeWhile_append_of_pos (by simpa using hskipped),
      List.takeWhile_cons_of_neg (by simpa using hfirst), List.append_nil]
  have heq : before = before' := by
    rw [← hfirst hbefore hplays, h, hfirst hbefore' hplays']
  subst heq
  have hrest := List.append_cancel_left h
  exact ⟨rfl, List.head_eq_of_cons_eq hrest, List.tail_eq_of_cons_eq hrest⟩

end Outside

/-! ## Taking tracks outside the random loop -/

/-- The queue once so many tracks were taken from its head; in a loop they go to its end. -/
def turned (mode : PlayMode) (n : Nat) (items : List Track) : List Track :=
  if mode.isLoop then items.drop n ++ items.take n else items.drop n

/-- The count once so many tracks were taken; it goes on in a loop only. -/
def counted (state : ModeState) (n : Nat) : Nat :=
  if state.mode.isLoop then state.playCount + n else if n = 0 then state.playCount else 1

theorem turned_append_cons (mode : PlayMode) (before after : List Track) (track : Track) :
    turned mode (before.length + 1) (before ++ track :: after) =
      if mode.isLoop then after ++ (before ++ [track]) else after := by
  have hsplit : before ++ track :: after = (before ++ [track]) ++ after := by simp
  have hlength : before.length + 1 = (before ++ [track]).length := by simp
  rw [turned, hsplit, hlength, List.drop_left, List.take_left]

theorem turned_subset (mode : PlayMode) (n : Nat) (items : List Track) :
    turned mode n items ⊆ items := by
  unfold turned
  split
  · exact List.append_subset.mpr ⟨List.drop_subset n items, List.take_subset n items⟩
  · exact List.drop_subset n items

theorem turned_length (mode : PlayMode) (items : List Track) :
    turned mode items.length items = if mode.isLoop then items else [] := by
  simp [turned]

namespace PlaybackState

variable {s : PlaybackState} {track : Track} {rest : List Track} {n : Nat}

/-- The state once so many tracks were taken outside the random loop. -/
def turned (s : PlaybackState) (n : Nat) : PlaybackState :=
  { s with
    queue := { s.queue with items := Jukebox.turned s.mode.mode n s.queue.items }
    mode := { s.mode with playCount := counted s.mode n } }

theorem turned_zero (s : PlaybackState) : s.turned 0 = s := by
  simp [turned, Jukebox.turned, counted]

theorem takeNext?_of_ne_randomLoop (hmode : s.mode.mode ≠ .randomLoop)
    (hitems : s.queue.items = track :: rest) : s.takeNext? = some (track, s.turned 1) := by
  have hno : s.mode.mode = .randomLoop → s.mode.playCount + 1 < rest.length + 1 :=
    fun h => absurd h hmode
  simp [takeNext?, Queue.next?, hitems, advance?_cons hno, turned, Jukebox.turned, counted]

theorem turned_turned (hn : n + 1 ≤ s.queue.items.length) :
    (s.turned 1).turned n = s.turned (n + 1) := by
  obtain ⟨track, rest, hitems⟩ := List.exists_cons_of_length_pos
    (by omega : 0 < s.queue.items.length)
  rw [hitems, List.length_cons] at hn
  cases hloop : s.mode.mode.isLoop with
  | true =>
    have hitems' : (rest ++ [track]).drop n ++ (rest ++ [track]).take n =
        rest.drop n ++ track :: rest.take n := by
      rw [List.drop_append_of_le_length (by omega), List.take_append_of_le_length (by omega)]
      simp
    have hcount : s.mode.playCount + 1 + n = s.mode.playCount + (n + 1) := by omega
    simp [turned, Jukebox.turned, counted, hloop, hitems, hitems', hcount]
  | false => simp [turned, Jukebox.turned, counted, hloop, hitems]

theorem length_turned_one (s : PlaybackState) :
    s.queue.items.length ≤ (s.turned 1).queue.items.length + 1 := by
  simp only [turned, Jukebox.turned]
  split
  · simp only [List.length_append, List.length_drop]
    omega
  · simp only [List.length_drop]
    omega

theorem closeCascade_of_ended {cascade : Cascade} (h : cascade.ended = none) :
    s.closeCascade cascade =
      { s with cascade := if s.cascade = some cascade.id then none else s.cascade } := by
  rcases s.closeCascade_cases cascade with ⟨hended, -⟩ | ⟨-, heq⟩
  · rw [h] at hended
    exact absurd hended.1 (by simp)
  · exact heq

/-- The state once a track was started in its turn, and so many before it were tried in vain. -/
def playingNext (s : PlaybackState) (r : ResolvedTrack) (n serial : Nat) : PlaybackState :=
  let renewed := (s.turned (n + 1)).queue.refresh r.track
  { s.turned (n + 1) with
    record := some (s.newRecord r n serial)
    queue := s.record.elim renewed fun displaced => renewed.remember displaced.track
    cascade := none
    cascadeCount := s.cascadeCount + 1 }

theorem history_playingNext (s : PlaybackState) (r : ResolvedTrack) (n serial : Nat) :
    (s.playingNext r n serial).queue.history =
      (s.record.elim s.queue fun displaced => s.queue.remember displaced.track).history := by
  cases hrecord : s.record <;>
    simp [playingNext, hrecord, turned, Queue.refresh, Queue.remember]

theorem identities_playingNext {r : ResolvedTrack} (hplain : Plain s.queue.items)
    (htrack : r.track.HasOneIdentity) (n serial : Nat) :
    (s.playingNext r n serial).queue.items.map Track.identity? =
      (Jukebox.turned s.mode.mode (n + 1) s.queue.items).map Track.identity? := by
  have hitems : (s.playingNext r n serial).queue.items =
      ((s.turned (n + 1)).queue.refresh r.track).items := by
    cases hrecord : s.record <;> simp [playingNext, hrecord, Queue.remember]
  have hturned : Plain (s.turned (n + 1)).queue.items :=
    hplain.of_subset (turned_subset s.mode.mode (n + 1) s.queue.items)
  rw [hitems, Queue.identities_refresh hturned htrack]
  rfl

/-- The state once all tracks were tried in vain. -/
def playingNone (s : PlaybackState) : PlaybackState :=
  { s.turned s.queue.items.length with cascade := none, cascadeCount := s.cascadeCount + 1 }

end PlaybackState

namespace Controller

variable {w : Collaborators} {o : Outside} {c : Controller}

theorem taking_of_ne_randomLoop (hmode : c.state.mode.mode ≠ .randomLoop) {n : Nat}
    (hn : n ≤ c.state.queue.items.length) : c.taking n = c.update (·.turned n) := by
  induction n generalizing c with
  | zero => simp [taking, update, PlaybackState.turned_zero]
  | succ n ih =>
    obtain ⟨track, rest, hitems⟩ := List.exists_cons_of_length_pos
      (by omega : 0 < c.state.queue.items.length)
    have hnext : c.state.takeNext? = some (track, c.state.turned 1) :=
      PlaybackState.takeNext?_of_ne_randomLoop hmode hitems
    have hlater : (c.update (·.turned 1)).taking n =
        (c.update (·.turned 1)).update (·.turned n) := by
      refine ih hmode ?_
      have hlength := c.state.length_turned_one
      simp only [update]
      omega
    rw [taking_of_takeNext? hnext, update, ← PlaybackState.turned_turned hn]
    exact hlater

/-! ## A cascade from its request to its answer -/

/-- The attempts of a cascade that `playNext` begins. -/
def firstSearch (c : Controller) : Search :=
  ⟨(c.openCascade none).2, Nat.max c.state.queue.length 1, 0, .start c.reportLimit⟩

theorem getsTo_firstSearch (w : Collaborators) (hfree : c.IsFree) :
    GetsTo w 0 2 ⟨c, [], .begin .playNext⟩
      ⟨(c.openCascade none).1, [], ((c.openCascade none).1.nextAttempt c.firstSearch).1⟩ := by
  have hopened : (c.openCascade none).1.IsFree := hfree
  have hbegin : GetsTo w 0 1 ⟨c, [], .begin .playNext⟩
      ⟨(c.openCascade none).1, [], .measure (c.openCascade none).2⟩ :=
    getsTo_of_locked w 0 hfree [] rfl
  have hmeasure : GetsTo w 0 1 ⟨(c.openCascade none).1, [], .measure (c.openCascade none).2⟩
      ⟨(c.openCascade none).1, ((c.openCascade none).1.nextAttempt c.firstSearch).2,
        ((c.openCascade none).1.nextAttempt c.firstSearch).1⟩ :=
    getsTo_of_locked w 0 hopened [] rfl
  have hsilent : ((c.openCascade none).1.nextAttempt c.firstSearch).2 = [] := by
    have hbudget : 0 < Nat.max c.state.queue.length 1 := Nat.le_max_right _ 1
    simp [nextAttempt, firstSearch, openCascade, isCancelled, hbudget]
  rw [hsilent] at hmeasure
  exact hbegin.trans hmeasure

/-- A cascade that comes to the end of its attempts answers with their outcome. -/
theorem run_playNext_of_getsTo (hfree : c.IsFree) {d : Controller} {told : List PlaybackEvent}
    {outcome : PlayOutcome} (hdfree : d.IsFree)
    (hgets : GetsTo w 0 (8 * Nat.max c.state.queue.length 1 + 1)
      ⟨(c.openCascade none).1, [], ((c.openCascade none).1.nextAttempt c.firstSearch).1⟩
      ⟨d, told, .settle (c.openCascade none).2 outcome⟩) :
    let last := finalOutcome (d.state.closeCascade (c.openCascade none).2) outcome
    c.run w .playNext = some
      ⟨(d.update (·.closeCascade (c.openCascade none).2)).update
          (·.closeCascade (c.openCascade none).2),
        told ++ closingWords last, .outcome (.ok last)⟩ := by
  intro last
  have hbound : 2 + (8 * Nat.max c.state.queue.length 1 + 1) + 2 ≤ c.stepBound .playNext := by
    have hmax : Nat.max c.state.queue.length 1 ≤ c.state.queue.length + 1 :=
      Nat.max_le.mpr ⟨by omega, by omega⟩
    simp only [stepBound]
    omega
  have hfinish := getsTo_settled w 0 hdfree (c.openCascade none).2 outcome told
  exact runFor_eq_of_getsTo (((getsTo_firstSearch w hfree).trans hgets).trans hfinish) hbound

theorem displace_search (s : Search) (generation : Nat) (queue : Queue)
    (displaced : Option PlaybackRecord) :
    displace (.search s generation) queue displaced =
      displaced.elim queue fun record => queue.remember record.track := by
  cases displaced <;> rfl

theorem TriesExactly.append_words {tracks : List Track} {told words : List PlaybackEvent}
    (h : c.TriesExactly o tracks told) (hwords : PlaybackEvent.OnlySays words) :
    c.TriesExactly o tracks (told ++ words) := by
  have hexactly : told.filter PlaybackEvent.isTry = _ := h
  rw [TriesExactly, List.filter_append, hexactly, hwords.tries, List.append_nil]

theorem run_playNext_of_plays (hfree : c.IsFree) (hw : o.Answers w)
    (hmode : c.state.mode.mode ≠ .randomLoop) {before after : List Track} {track : Track}
    {r : ResolvedTrack} (hsplit : c.state.queue.items = before ++ track :: after)
    (hbefore : ∀ other ∈ before, o.plays? other = none) (hplays : o.plays? track = some r) :
    ∃ events, c.TriesExactly o (before ++ [track]) events ∧ c.run w .playNext = some
      ⟨{ c with
          state := c.state.playingNext r before.length (c.serial + o.offered before + 1)
          token := c.token + 1
          serial := c.serial + o.offered before + 1 }, events, .outcome (.ok .started)⟩ := by
  let opened := (c.openCascade none).1
  have hopened : opened.IsFree := hfree
  have hlap : opened.upcoming (Nat.max c.state.queue.length 1) = c.state.queue.items :=
    (upcoming_budget opened).trans (lap_eq_self (.inl hmode))
  have hmem : track ∈ opened.upcoming (Nat.max c.state.queue.length 1) := by simp [hlap, hsplit]
  have hsought : Sought o w 0 (Nat.max c.state.queue.length 1) opened [] c.firstSearch :=
    sought hw 0 _ hopened rfl (Nat.zero_add _) []
  cases hsought with
  | @plays told before' after' track' r' purpose hpurpose htracks hbefore' hplays' htold hgets =>
    rw [hlap, hsplit] at htracks
    obtain ⟨rfl, rfl, rfl⟩ : before = before' ∧ track = track' ∧ after = after' :=
      Outside.first_unique htracks hbefore (by simp [hplays]) hbefore' (by simp [hplays'])
    obtain rfl : r = r' := Option.some.inj (hplays.symm.trans hplays')
    have hlength : before.length + 1 ≤ opened.state.queue.items.length := by
      simp [opened, openCascade, hsplit]
    have htaken : opened.taking (before.length + 1) =
        opened.update (·.turned (before.length + 1)) :=
      taking_of_ne_randomLoop (c := opened) hmode hlength
    rw [htaken] at hgets
    obtain ⟨s, generation, rfl⟩ := hpurpose
    have hrun := run_playNext_of_getsTo hfree (by exact hfree) hgets
    refine ⟨told, htold, ?_⟩
    rw [hrun]
    simp [opened, openCascade, firstSearch, update, tried, playing, displace_search,
      PlaybackState.closeCascade_of_ended, PlaybackState.playingNext, PlaybackState.newRecord,
      PlaybackState.turned, finalOutcome, closingWords]
  | exhausts hlength hnone htold hgets =>
    rw [hnone track hmem] at hplays
    cases hplays
  | runsDry hlength hnone htold hgets =>
    rw [hnone track hmem] at hplays
    cases hplays

theorem run_playNext_of_none (hfree : c.IsFree) (hw : o.Answers w)
    (hmode : c.state.mode.mode ≠ .randomLoop)
    (hnone : ∀ track ∈ c.state.queue.items, o.plays? track = none) :
    ∃ events, c.TriesExactly o c.state.queue.items events ∧ c.run w .playNext = some
      ⟨{ c with
          state := c.state.playingNone
          token := c.token + 1
          serial := c.serial + o.offered c.state.queue.items },
        events, .outcome (.ok (if c.state.mode.mode.isLoop ∧ c.state.queue.items ≠ [] then .exhausted
          else .queueEmpty))⟩ := by
  let opened := (c.openCascade none).1
  have hopened : opened.IsFree := hfree
  have hlap : opened.upcoming (Nat.max c.state.queue.length 1) = c.state.queue.items :=
    (upcoming_budget opened).trans (lap_eq_self (.inl hmode))
  have hsought : Sought o w 0 (Nat.max c.state.queue.length 1) opened [] c.firstSearch :=
    sought hw 0 _ hopened rfl (Nat.zero_add _) []
  cases hsought with
  | @plays told before after track r purpose hpurpose htracks hbefore hplays htold hgets =>
    have hmem : track ∈ c.state.queue.items := by simp [← hlap, htracks]
    rw [hnone track hmem] at hplays
    cases hplays
  | @exhausts told hlength htracks htold hgets =>
    rw [hlap] at hlength htold hgets
    have hitems : c.state.queue.items ≠ [] := by
      intro hempty
      rw [Queue.length, hempty] at hlength
      cases hlength
    have htaken : opened.taking (Nat.max c.state.queue.length 1) =
        opened.update (·.turned c.state.queue.items.length) := by
      rw [← hlength]
      exact taking_of_ne_randomLoop (c := opened) hmode (Nat.le_refl _)
    let d := (opened.update (·.turned c.state.queue.items.length)).tried o c.state.queue.items
    have hdfree : d.IsFree := hfree
    let last := finalOutcome (d.state.closeCascade (c.openCascade none).2) .exhausted
    have hlast : last = if c.state.mode.mode.isLoop ∧ c.state.queue.items ≠ [] then .exhausted
        else .queueEmpty := by
      cases hloop : c.state.mode.mode.isLoop <;>
        simp [last, d, finalOutcome, opened, openCascade, update, tried, hloop, turned_length,
          PlaybackState.closeCascade_of_ended, PlaybackState.turned, Queue.isEmpty, hitems]
    rw [htaken] at hgets
    have hrun := run_playNext_of_getsTo hfree hdfree hgets
    refine ⟨told ++ closingWords last, htold.append_words (onlySays_closingWords last), ?_⟩
    rw [hrun, ← hlast]
    simp [d, last, opened, openCascade, update, tried, PlaybackState.closeCascade_of_ended,
      PlaybackState.playingNone, PlaybackState.turned]
  | @runsDry told hlength htracks htold hgets =>
    rw [hlap] at hlength htold hgets
    have hempty : c.state.queue.items = [] := by
      by_contra hitems
      have hpos : 0 < c.state.queue.items.length := List.length_pos_iff.mpr hitems
      have hmax : Nat.max c.state.queue.length 1 = c.state.queue.items.length :=
        Nat.max_eq_left hpos
      rw [hmax] at hlength
      exact Nat.lt_irrefl _ hlength
    have hdry : opened.state.takeNext? = none := by
      simp [PlaybackState.takeNext?, Queue.next?, opened, openCascade, hempty, advance?]
    rw [taking_of_takeNext?_eq_none hdry] at hgets
    have hdfree : ((opened.tried o c.state.queue.items).update
        (·.closeCascade c.firstSearch.cascade)).IsFree := hfree
    have hrun := run_playNext_of_getsTo hfree hdfree hgets
    refine ⟨told ++ closingWords .queueEmpty, htold.append_words (onlySays_closingWords _), ?_⟩
    rw [hrun]
    simp [opened, openCascade, firstSearch, update, tried, PlaybackState.closeCascade_of_ended,
      PlaybackState.playingNone, PlaybackState.turned_zero, finalOutcome, hempty]

/-- Outside the random loop `playNext` tries the tracks of the queue in their order while nothing
else runs.  It starts the first one that plays and pushes the displaced record to the history; the
tracks up to it leave the queue, or go to its end in a loop, where each of them counts.  If none
plays, all of them have been tried, and only a loop still has them. -/
theorem playNext_of_ne_randomLoop (hfree : c.IsFree) (hw : o.Answers w) (hkeeps : o.KeepsKeys)
    (hmode : c.state.mode.mode ≠ .randomLoop) (hplain : Plain c.state.queue.items) :
    ∃ run, c.run w .playNext = some run ∧
      (∀ before track after r, c.state.queue.items = before ++ track :: after →
        (∀ other ∈ before, o.plays? other = none) → o.plays? track = some r →
          run.answer = .outcome (.ok .started) ∧
          c.TriesExactly o (before ++ [track]) run.events ∧
          run.controller.state.record = some ⟨r.track, r.streamUrl, c.state.presence.silenced,
            before.length, c.serial + o.offered before + 1⟩ ∧
          r.track.identity? = track.identity? ∧
          run.controller.state.queue.history = (c.state.record.elim c.state.queue
            fun displaced => c.state.queue.remember displaced.track).history ∧
          run.controller.state.queue.items.map Track.identity? =
            (if c.state.mode.mode.isLoop then after ++ (before ++ [track]) else after).map
              Track.identity? ∧
          run.controller.state.mode = ⟨c.state.mode.mode,
            if c.state.mode.mode.isLoop then c.state.mode.playCount + (before.length + 1)
            else 1⟩) ∧
      ((∀ track ∈ c.state.queue.items, o.plays? track = none) →
        run.answer = .outcome (.ok (if c.state.mode.mode.isLoop ∧ c.state.queue.items ≠ [] then
          .exhausted else .queueEmpty)) ∧
        c.TriesExactly o c.state.queue.items run.events ∧
        run.controller.state.record = c.state.record ∧
        run.controller.state.queue =
          ⟨if c.state.mode.mode.isLoop then c.state.queue.items else [], c.state.queue.history⟩) := by
  obtain ⟨run, hrun⟩ := hfree.exists_run w .playNext
  refine ⟨run, hrun, ?_, ?_⟩
  · intro before track after r hsplit hbefore hplays
    obtain ⟨events, htold, hends⟩ := run_playNext_of_plays hfree hw hmode hsplit hbefore hplays
    obtain rfl := Option.some.inj (hrun.symm.trans hends)
    have hidentity : r.track.identity? = track.identity? := (hkeeps.sameKeys hplays).identity?_eq
    have htrack : r.track.HasOneIdentity := by
      rw [Track.HasOneIdentity, hidentity]
      exact hplain track (by simp [hsplit])
    refine ⟨rfl, htold, rfl, hidentity, PlaybackState.history_playingNext _ _ _ _, ?_, ?_⟩
    · dsimp only
      rw [PlaybackState.identities_playingNext hplain htrack, hsplit, turned_append_cons]
    · simp [PlaybackState.playingNext, PlaybackState.turned, counted]
  · intro hnone
    obtain ⟨events, htold, hends⟩ := run_playNext_of_none hfree hw hmode hnone
    obtain rfl := Option.some.inj (hrun.symm.trans hends)
    refine ⟨rfl, htold, rfl, ?_⟩
    simp [PlaybackState.playingNone, PlaybackState.turned, turned_length]

/-- In a loop the first of two tracks does not play.  The second one is started, and the queue is as
before. -/
theorem playNext_past_one_that_fails :
    let o : Outside := ⟨fun track => .ok (some ⟨track, "found"⟩),
      fun source => if source.url = "gone" then .error .emptyQueue else .ok ()⟩
    let c := System.blank.controller.update fun s =>
      { s with
        queue := ⟨[.direct "gone", .direct "here"], []⟩
        mode := ⟨.sequentialLoop, 0⟩
        record := some ⟨.direct "before", "before", false, 0, 0⟩ }
    c.IsFree ∧ o.Answers o.collaborators ∧ o.KeepsKeys ∧ c.state.mode.mode ≠ .randomLoop ∧
      Plain c.state.queue.items ∧
      ∃ run, c.run o.collaborators .playNext = some run ∧ run.answer = .outcome (.ok .started) ∧
        run.controller.state.record = some ⟨.direct "here", "here", false, 1, 2⟩ ∧
        run.controller.state.queue.history = [.direct "before"] ∧
        run.controller.state.queue.items.map Track.identity? =
          [some (.direct "gone"), some (.direct "here")] ∧
        run.controller.state.mode = ⟨.sequentialLoop, 2⟩ := by
  intro o c
  have hfree : c.IsFree := ⟨rfl, rfl⟩
  have hw : o.Answers o.collaborators := o.answers_collaborators
  have hkeeps : o.KeepsKeys := Outside.keepsKeys_of_sameTrack _ _
  have hmode : c.state.mode.mode ≠ .randomLoop := by decide
  have hplain : Plain c.state.queue.items := by decide +kernel
  have hgone : o.plays? (.direct "gone") = none := by decide +kernel
  have hhere : o.plays? (.direct "here") = some ⟨.direct "here", "here"⟩ := by decide +kernel
  obtain ⟨run, hrun, hstarts, -⟩ := playNext_of_ne_randomLoop hfree hw hkeeps hmode hplain
  obtain ⟨hanswer, -, hrecord, -, hhistory, hitems, hmode'⟩ :=
    hstarts [.direct "gone"] (.direct "here") [] _ rfl (by simpa using hgone) hhere
  exact ⟨hfree, hw, hkeeps, hmode, hplain, run, hrun, hanswer, hrecord, hhistory, hitems, hmode'⟩

end Controller

end Jukebox
