import Jukebox.Proofs.Playback.NextTrack

/-!
# What going back comes to

An operation that goes back alone tries the played tracks, the latest first, until one plays or
ten were tried in vain.  The tracks that were tried are gone from the history.  The displaced track
moves to the head of the queue, and nothing else of the queue changes but the description of the
track that is playing again (`Controller.previous_of_history`).
-/

namespace Jukebox

namespace Queue

/-- A fuller description of a track is copied over the first entry of the same track, if there is
one; whether the entry belongs to a playlist stays as it was. -/
inductive Renews (track : Track) : List Track → List Track → Prop
  | first {before after : List Track} {item : Track}
      (hbefore : ∀ other ∈ before, other.same track = false) (hsame : item.same track = true) :
      Renews track (before ++ item :: after)
        (before ++ { track with inPlaylist := item.inPlaylist } :: after)
  | none {items : List Track} (h : ∀ item ∈ items, item.same track = false) :
      Renews track items items

variable {track item : Track} {before after items : List Track}

theorem refresh_go_of_forall (h : ∀ item ∈ items, item.same track = false) :
    refresh.go track items = items := by
  induction items with
  | nil => rfl
  | cons item rest ih =>
    obtain ⟨hitem, hrest⟩ := List.forall_mem_cons.mp h
    simp only [refresh.go, hitem, Bool.false_eq_true, if_false, ih hrest]

theorem refresh_go_append_cons (hbefore : ∀ other ∈ before, other.same track = false)
    (hsame : item.same track = true) :
    refresh.go track (before ++ item :: after) =
      before ++ { track with inPlaylist := item.inPlaylist } :: after := by
  induction before with
  | nil => simp only [List.nil_append, refresh.go, hsame, if_true]
  | cons other before ih =>
    obtain ⟨hother, hbefore⟩ := List.forall_mem_cons.mp hbefore
    simp only [List.cons_append, refresh.go, hother, Bool.false_eq_true, if_false, ih hbefore]

theorem renews_iff {q : Queue} {renewed : List Track} :
    Renews track q.items renewed ↔ renewed = (q.refresh track).items := by
  have hgo : (q.refresh track).items = refresh.go track q.items := rfl
  rw [hgo]
  constructor
  · intro h
    generalize q.items = items at h
    cases h with
    | none hnone => exact (refresh_go_of_forall hnone).symm
    | first hbefore hsame => exact (refresh_go_append_cons hbefore hsame).symm
  · rintro rfl
    rcases refresh_go_cases track q.items with ⟨hnone, hsame⟩ |
      ⟨before, item, after, hitems, hbefore, hitem, hrenewed⟩
    · rw [hsame]
      exact .none (by simpa [List.filter_eq_nil_iff] using hnone)
    · rw [hrenewed, hitems]
      exact .first hbefore hitem

end Queue

namespace PlaybackState

/-- The state once so many tracks were taken back from the history. -/
def takingBack (s : PlaybackState) (n : Nat) : PlaybackState :=
  { s with queue := { s.queue with history := s.queue.history.drop n } }

theorem takingBack_of_history_eq_nil {s : PlaybackState} (h : s.queue.history = []) (n : Nat) :
    s.takingBack n = s := by
  have hdrop : s.queue.history.drop n = s.queue.history := by rw [h, List.drop_nil]
  rw [takingBack, hdrop]

/-- The state once a track of the history was started, and so many later ones were tried in
vain. -/
def playingBack (s : PlaybackState) (r : ResolvedTrack) (n serial : Nat) : PlaybackState :=
  let renewed := (s.takingBack (n + 1)).queue.refresh r.track
  { s with
    record := some (s.newRecord r n serial)
    queue := s.record.elim renewed fun displaced => renewed.addFirst displaced.track
    cascade := none
    cascadeCount := s.cascadeCount + 1 }

theorem history_playingBack {s : PlaybackState} {before after : List Track} {track : Track}
    (h : s.queue.history = before ++ track :: after) (r : ResolvedTrack) (serial : Nat) :
    (s.playingBack r before.length serial).queue.history = after := by
  have hsplit : before ++ track :: after = (before ++ [track]) ++ after := by simp
  have hlength : before.length + 1 = (before ++ [track]).length := by simp
  have hdrop : s.queue.history.drop (before.length + 1) = after := by
    rw [h, hsplit, hlength, List.drop_left]
  cases hrecord : s.record <;>
    simp [playingBack, hrecord, takingBack, hdrop, Queue.refresh, Queue.addFirst, Queue.add]

theorem items_playingBack (s : PlaybackState) (r : ResolvedTrack) (n serial : Nat) :
    (s.playingBack r n serial).queue.items =
      s.record.elim (s.queue.refresh r.track).items fun displaced =>
        displaced.track ::
          (s.queue.refresh r.track).items.filter fun item => !item.same displaced.track := by
  cases hrecord : s.record with
  | none => simp [playingBack, hrecord, takingBack, Queue.refresh]
  | some displaced =>
    simp only [playingBack, hrecord, Option.elim_some, Queue.items_addFirst]
    rfl

/-- The state once so many tracks of the history were tried in vain. -/
def playingNoneBack (s : PlaybackState) (n : Nat) : PlaybackState :=
  { s.takingBack n with cascade := none, cascadeCount := s.cascadeCount + 1 }

end PlaybackState

namespace Controller

variable {w : Collaborators} {o : Outside} {op n attempts : Nat} {c : Controller}
  {events told : List PlaybackEvent} {cascade : Cascade} {track : Track} {rest : List Track}

/-! ## The attempts -/

/-- Where going back stands once so many tracks were tried in vain. -/
def goOn (cascade : Cascade) (attempts : Nat) : Stage :=
  if attempts < maxPreviousAttempts then .takeBack cascade attempts
  else .close cascade (.error (.exhaustedRetries attempts)) none

/-- What is answered once so many tracks were tried, and no other is left. -/
def nothingLeft (attempts : Nat) : Error :=
  if attempts = 0 then .noPreviousTrack else .exhaustedRetries attempts

/-- How the attempts of going back end. -/
inductive WentBack (o : Outside) (w : Collaborators) (op n : Nat) (c : Controller)
    (events : List PlaybackEvent) (cascade : Cascade) (attempts : Nat) : Prop
  /-- The first track that plays is started, and those before it do not play. -/
  | plays {told : List PlaybackEvent} {before after : List Track} {track : Track}
      {r : ResolvedTrack} (last : Nat)
      (htracks : c.state.queue.history = before ++ track :: after) (hlt : before.length < n)
      (hbefore : ∀ other ∈ before, o.plays? other = none) (hplays : o.plays? track = some r)
      (htold : c.TriesExactly o (before ++ [track]) told)
      (hgets : GetsTo w op (7 * n + 1) ⟨c, events, goOn cascade attempts⟩
        ⟨((c.update (·.takingBack (before.length + 1))).tried o before).playing
          (.goBack cascade last) r (attempts + before.length),
          events ++ told, .close cascade (.ok .started) none⟩)
  /-- No track plays. -/
  | fails {told : List PlaybackEvent}
      (htracks : ∀ track ∈ c.state.queue.history.take n, o.plays? track = none)
      (htold : c.TriesExactly o (c.state.queue.history.take n) told)
      (hgets : GetsTo w op (7 * n + 1) ⟨c, events, goOn cascade attempts⟩
        ⟨(c.update (·.takingBack n)).tried o (c.state.queue.history.take n), events ++ told,
          .close cascade
            (.error (nothingLeft (attempts + (c.state.queue.history.take n).length))) none⟩)

/-- One more track was tried first, and it does not play. -/
theorem WentBack.cons (hhistory : c.state.queue.history = track :: rest)
    (hplays : o.plays? track = none) (htold : c.TriesExactly o [track] told)
    (hfirst : GetsTo w op 7 ⟨c, events, goOn cascade attempts⟩
      ⟨(c.update (·.takingBack 1)).tried o [track], events ++ told, goOn cascade (attempts + 1)⟩)
    (hlater : WentBack o w op n ((c.update (·.takingBack 1)).tried o [track]) (events ++ told)
      cascade (attempts + 1)) : WentBack o w op (n + 1) c events cascade attempts := by
  let d := (c.update (·.takingBack 1)).tried o [track]
  have hrest : d.state.queue.history = rest := by
    simp [d, update, tried, PlaybackState.takingBack, hhistory]
  have hnone : ∀ {tracks : List Track}, (∀ other ∈ tracks, o.plays? other = none) →
      ∀ other ∈ track :: tracks, o.plays? other = none :=
    fun htracks => List.forall_mem_cons.mpr ⟨hplays, htracks⟩
  have hback : ∀ k tracks, (d.update (·.takingBack k)).tried o tracks =
      (c.update (·.takingBack (k + 1))).tried o (track :: tracks) := by
    intro k tracks
    simp [d, update, tried, PlaybackState.takingBack, o.offered_cons track tracks, Nat.add_assoc]
  have hle : 7 + (7 * n + 1) ≤ 7 * (n + 1) + 1 := by omega
  cases hlater with
  | @plays told' before after other r last hsplit hlt hbefore hother htold' hgets =>
    have hall := (hfirst.trans hgets).mono hle
    rw [List.append_assoc, Nat.add_assoc, Nat.add_comm 1, hback] at hall
    have hsplit' : c.state.queue.history = (track :: before) ++ other :: after := by
      rw [hhistory, List.cons_append, ← hsplit]
      exact congrArg (track :: ·) hrest.symm
    exact .plays last hsplit' (Nat.succ_lt_succ hlt) (hnone hbefore) hother (htold.cons htold') hall
  | fails hfails htold' hgets =>
    have htake : c.state.queue.history.take (n + 1) =
        track :: ((c.update (·.takingBack 1)).tried o [track]).state.queue.history.take n := by
      rw [hhistory, List.take_succ_cons]
      exact congrArg (fun history => track :: history.take n) hrest.symm
    have hall := (hfirst.trans hgets).mono hle
    rw [List.append_assoc, Nat.add_assoc, Nat.add_comm 1, ← List.length_cons, hback,
      ← htake] at hall
    have hcons := htold.cons htold'
    have hfails' := hnone hfails
    rw [← htake] at hcons hfails'
    exact .fails hfails' hcons hall

/-- Another track follows one that failed, if another one may be tried. -/
theorem failed_of_goBack {l : Launch} (h : l.purpose = .goBack cascade attempts) (e : Error) :
    (failed l e).1 = goOn cascade attempts := by
  simp only [failed, h, goOn]
  split <;> rfl

theorem goOn_of_lt (h : attempts < maxPreviousAttempts) :
    goOn cascade attempts = .takeBack cascade attempts := if_pos h

theorem wentBack_of_history_eq_nil (op n : Nat) (hfree : c.IsFree)
    (hhistory : c.state.queue.history = []) (hlt : attempts < maxPreviousAttempts)
    (events : List PlaybackEvent) : WentBack o w op (n + 1) c events cascade attempts := by
  have hnone : c.state.queue.history.take (n + 1) = [] := by rw [hhistory, List.take_nil]
  have hsame : (c.update (·.takingBack (n + 1))).tried o [] = c := by
    simp only [update, PlaybackState.takingBack_of_history_eq_nil hhistory]
    rfl
  have hdry : GetsTo w op 1 ⟨c, events, goOn cascade attempts⟩
      ⟨c, events ++ [], .close cascade (.error (nothingLeft attempts)) none⟩ := by
    have hlocked := getsTo_of_locked w op hfree events
      (rfl : (Stage.takeBack cascade attempts).need = .lock)
    simp only [locked, Queue.takeBack?, hhistory] at hlocked
    rw [goOn_of_lt hlt]
    exact hlocked
  have htold : c.TriesExactly o (c.state.queue.history.take (n + 1)) [] := by
    rw [hnone]
    rfl
  refine .fails (fun _ hmem => ?_) htold ?_
  · rw [hnone] at hmem
    cases hmem
  · rw [hnone, hsame]
    exact hdry.mono (by omega)

theorem wentBack (hw : o.Answers w) (op n : Nat) (hfree : c.IsFree)
    (htoken : cascade.token = c.token) (hattempts : attempts + n = maxPreviousAttempts)
    (events : List PlaybackEvent) : WentBack o w op n c events cascade attempts := by
  induction n generalizing c attempts events with
  | zero =>
    have hover : goOn cascade attempts =
        .close cascade (.error (nothingLeft (attempts + 0))) none := by
      obtain rfl : attempts = maxPreviousAttempts := hattempts
      rfl
    have hgets : GetsTo w op 1 ⟨c, events, goOn cascade attempts⟩
        ⟨c, events ++ [], .close cascade (.error (nothingLeft (attempts + 0))) none⟩ := by
      rw [hover, List.append_nil]
      exact (GetsTo.refl _).mono (by omega)
    have htold : c.TriesExactly o (c.state.queue.history.take 0) [] := rfl
    exact .fails (List.forall_mem_nil _) htold hgets
  | succ n ih =>
    cases hhistory : c.state.queue.history with
    | nil => exact wentBack_of_history_eq_nil op n hfree hhistory (by omega) events
    | cons track rest =>
      let taken := c.update (·.takingBack 1)
      let l : Launch := ⟨track, none, attempts, .goBack cascade (attempts + 1)⟩
      have htaken : taken.IsFree := hfree
      have htakes : GetsTo w op 1 ⟨c, events, goOn cascade attempts⟩ ⟨taken, events, .ask l⟩ := by
        have hlocked := getsTo_of_locked w op hfree events
          (rfl : (Stage.takeBack cascade attempts).need = .lock)
        simp only [locked, Queue.takeBack?, hhistory, List.append_nil] at hlocked
        rw [goOn_of_lt (by omega)]
        simpa [taken, update, PlaybackState.takingBack, hhistory] using hlocked
      have hltoken : l.token = taken.token := htoken
      have hattempt : Attempted o w op taken events l := attempted hw op htaken rfl hltoken events
      cases hattempt with
      | plays hplays htold hgets =>
        have hall := (htakes.trans hgets).mono (by omega : 1 + 7 ≤ 7 * (n + 1) + 1)
        have hsplit : c.state.queue.history = [] ++ track :: rest := hhistory
        exact .plays (attempts + 1) hsplit (Nat.succ_pos n)
          (List.forall_mem_nil _) hplays htold hall
      | @fails e told hplays htold hgets =>
        rw [failed_of_goBack rfl] at hgets
        have hdfree : (taken.tried o [track]).IsFree := hfree
        have hnext : attempts + 1 + n = maxPreviousAttempts := by omega
        have hlater := ih hdfree htoken hnext (events ++ told)
        exact .cons hhistory hplays htold (htakes.trans hgets) hlater

/-! ## From the request to the answer -/

/-- Going back that comes to the end of its attempts answers with their result. -/
theorem run_previous_of_getsTo (hfree : c.IsFree) {d : Controller}
    {result : Except Error PlayOutcome} (hdfree : d.IsFree)
    (hgets : GetsTo w 0 (7 * maxPreviousAttempts + 1)
      ⟨(c.openCascade none).1, [], goOn (c.openCascade none).2 0⟩
      ⟨d, told, .close (c.openCascade none).2 result none⟩) :
    c.run w .previous =
      some ⟨d.update (·.closeCascade (c.openCascade none).2), told, .outcome result⟩ := by
  have hbegin : GetsTo w 0 1 ⟨c, [], .begin .previous⟩
      ⟨(c.openCascade none).1, [], goOn (c.openCascade none).2 0⟩ :=
    getsTo_of_locked w 0 hfree [] rfl
  have hclose : GetsTo w 0 1 ⟨d, told, .close (c.openCascade none).2 result none⟩
      ⟨d.update (·.closeCascade (c.openCascade none).2), told ++ [],
        .finished (.outcome result)⟩ :=
    getsTo_of_locked w 0 hdfree told rfl
  rw [List.append_nil] at hclose
  have hbound : 1 + (7 * maxPreviousAttempts + 1) + 1 ≤ c.stepBound .previous := by
    simp only [stepBound]
    omega
  exact runFor_eq_of_getsTo ((hbegin.trans hgets).trans hclose) hbound

theorem displace_goBack (cascade : Cascade) (attempts : Nat) (queue : Queue)
    (displaced : Option PlaybackRecord) :
    displace (.goBack cascade attempts) queue displaced =
      displaced.elim queue fun record => queue.addFirst record.track := by
  cases displaced <;> rfl

/-- How going back ends when nothing else runs. -/
inductive EndsBack (o : Outside) (c : Controller) : PlaybackRun → Prop
  | plays {events : List PlaybackEvent} {before after : List Track} {track : Track}
      {r : ResolvedTrack} (htracks : c.state.queue.history = before ++ track :: after)
      (hlt : before.length < maxPreviousAttempts)
      (hbefore : ∀ other ∈ before, o.plays? other = none) (hplays : o.plays? track = some r)
      (htold : c.TriesExactly o (before ++ [track]) events) :
      EndsBack o c
        ⟨{ c with
            state := c.state.playingBack r before.length (c.serial + o.offered before + 1)
            token := c.token + 1
            serial := c.serial + o.offered before + 1 }, events, .outcome (.ok .started)⟩
  | fails {events : List PlaybackEvent}
      (htracks : ∀ track ∈ c.state.queue.history.take maxPreviousAttempts, o.plays? track = none)
      (htold : c.TriesExactly o (c.state.queue.history.take maxPreviousAttempts) events) :
      EndsBack o c
        ⟨{ c with
            state := c.state.playingNoneBack maxPreviousAttempts
            token := c.token + 1
            serial := c.serial + o.offered (c.state.queue.history.take maxPreviousAttempts) },
          events, .outcome (.error
            (nothingLeft (c.state.queue.history.take maxPreviousAttempts).length))⟩

theorem run_previous (hfree : c.IsFree) (hw : o.Answers w) :
    ∃ run, c.run w .previous = some run ∧ EndsBack o c run := by
  let opened := (c.openCascade none).1
  have hopened : opened.IsFree := hfree
  have hback : WentBack o w 0 maxPreviousAttempts opened [] (c.openCascade none).2 0 :=
    wentBack hw 0 _ hopened rfl (Nat.zero_add _) []
  cases hback with
  | @plays told before after track r last htracks hlt hbefore hplays htold hgets =>
    have hdfree : (((opened.update (·.takingBack (before.length + 1))).tried o before).playing
        (.goBack (c.openCascade none).2 last) r (0 + before.length)).IsFree := hfree
    have hrun := run_previous_of_getsTo hfree hdfree hgets
    have hends := EndsBack.plays (c := c) htracks hlt hbefore hplays htold
    refine ⟨_, ?_, hends⟩
    rw [hrun]
    simp [opened, openCascade, update, tried, playing, displace_goBack,
      PlaybackState.closeCascade_of_ended, PlaybackState.playingBack, PlaybackState.newRecord,
      PlaybackState.takingBack]
  | @fails told htracks htold hgets =>
    have hdfree : ((opened.update (·.takingBack maxPreviousAttempts)).tried o
        (opened.state.queue.history.take maxPreviousAttempts)).IsFree := hfree
    have hrun := run_previous_of_getsTo hfree hdfree hgets
    have hends := EndsBack.fails (c := c) htracks htold
    refine ⟨_, ?_, hends⟩
    rw [hrun]
    simp [opened, openCascade, update, tried, PlaybackState.closeCascade_of_ended,
      PlaybackState.playingNoneBack, PlaybackState.takingBack]

theorem mem_take_of_length_lt {history before after : List Track}
    (hsplit : history = before ++ track :: after) (hlt : before.length < n) :
    track ∈ history.take n := by
  obtain ⟨k, rfl⟩ : ∃ k, n = before.length + (k + 1) := ⟨n - before.length - 1, by omega⟩
  simp [hsplit, List.take_append]

theorem run_previous_of_plays (hfree : c.IsFree) (hw : o.Answers w) {before after : List Track}
    {r : ResolvedTrack} (hsplit : c.state.queue.history = before ++ track :: after)
    (hlt : before.length < maxPreviousAttempts)
    (hbefore : ∀ other ∈ before, o.plays? other = none) (hplays : o.plays? track = some r) :
    ∃ events, c.TriesExactly o (before ++ [track]) events ∧ c.run w .previous = some
      ⟨{ c with
          state := c.state.playingBack r before.length (c.serial + o.offered before + 1)
          token := c.token + 1
          serial := c.serial + o.offered before + 1 }, events, .outcome (.ok .started)⟩ := by
  obtain ⟨run, hrun, hends⟩ := run_previous hfree hw
  cases hends with
  | @plays events before' after' track' r' hsplit' hlt' hbefore' hplays' htold =>
    obtain ⟨rfl, rfl, rfl⟩ : before = before' ∧ track = track' ∧ after = after' :=
      Outside.first_unique (hsplit.symm.trans hsplit') hbefore (by simp [hplays]) hbefore'
        (by simp [hplays'])
    obtain rfl : r = r' := Option.some.inj (hplays.symm.trans hplays')
    exact ⟨events, htold, hrun⟩
  | fails hnone htold =>
    rw [hnone track (mem_take_of_length_lt hsplit hlt)] at hplays
    cases hplays

theorem run_previous_of_none (hfree : c.IsFree) (hw : o.Answers w)
    (hnone : ∀ track ∈ c.state.queue.history.take maxPreviousAttempts, o.plays? track = none) :
    ∃ events, c.TriesExactly o (c.state.queue.history.take maxPreviousAttempts) events ∧
      c.run w .previous = some
        ⟨{ c with
            state := c.state.playingNoneBack maxPreviousAttempts
            token := c.token + 1
            serial := c.serial + o.offered (c.state.queue.history.take maxPreviousAttempts) },
          events, .outcome (.error
            (nothingLeft (c.state.queue.history.take maxPreviousAttempts).length))⟩ := by
  obtain ⟨run, hrun, hends⟩ := run_previous hfree hw
  cases hends with
  | plays hsplit hlt hbefore hplays htold =>
    rw [hnone _ (mem_take_of_length_lt hsplit hlt)] at hplays
    cases hplays
  | @fails events hnone htold => exact ⟨events, htold, hrun⟩

/-- While nothing else runs, going back tries the played tracks, the latest first, and not more
than ten.  The first one that plays is the current track again, and the history loses the tracks
up to it.  In the queue its description is renewed, and the displaced track comes to the head.  If
none plays, the history loses those that were tried, and nothing else changes. -/
theorem previous_of_history (hfree : c.IsFree) (hw : o.Answers w) (hkeeps : o.KeepsKeys) :
    ∃ run, c.run w .previous = some run ∧
      (c.state.queue.history = [] →
        run.answer = .outcome (.error .noPreviousTrack) ∧
        run.controller.state.queue = c.state.queue ∧
        run.controller.state.record = c.state.record ∧
        run.controller.state.mode = c.state.mode) ∧
      (∀ before track after r, c.state.queue.history = before ++ track :: after →
        before.length < maxPreviousAttempts → (∀ other ∈ before, o.plays? other = none) →
        o.plays? track = some r →
          run.answer = .outcome (.ok .started) ∧
          c.TriesExactly o (before ++ [track]) run.events ∧
          run.controller.state.record = some ⟨r.track, r.streamUrl, c.state.presence.silenced,
            before.length, c.serial + o.offered before + 1⟩ ∧
          r.track.SameKeys track ∧
          run.controller.state.queue.history = after ∧
          (∃ renewed, Queue.Renews r.track c.state.queue.items renewed ∧
            run.controller.state.queue.items = c.state.record.elim renewed fun displaced =>
              displaced.track :: renewed.filter fun item => !item.same displaced.track) ∧
          run.controller.state.mode = c.state.mode) ∧
      (c.state.queue.history ≠ [] →
        (∀ track ∈ c.state.queue.history.take maxPreviousAttempts, o.plays? track = none) →
          run.answer = .outcome (.error (.exhaustedRetries
            (min maxPreviousAttempts c.state.queue.history.length))) ∧
          c.TriesExactly o (c.state.queue.history.take maxPreviousAttempts) run.events ∧
          run.controller.state.record = c.state.record ∧
          run.controller.state.queue =
            ⟨c.state.queue.items, c.state.queue.history.drop maxPreviousAttempts⟩ ∧
          run.controller.state.mode = c.state.mode) ∧
      ∃ tried, tried <+: c.state.queue.history ∧ tried.length ≤ maxPreviousAttempts ∧
        c.TriesExactly o tried run.events := by
  obtain ⟨run, hrun, hends⟩ := run_previous hfree hw
  refine ⟨run, hrun, ?_, ?_, ?_, ?_⟩
  · intro hempty
    have hnone : ∀ track ∈ c.state.queue.history.take maxPreviousAttempts,
        o.plays? track = none := by simp [hempty]
    obtain ⟨events, -, hfails⟩ := run_previous_of_none hfree hw hnone
    obtain rfl := Option.some.inj (hrun.symm.trans hfails)
    refine ⟨by simp [hempty, nothingLeft], ?_, rfl, rfl⟩
    simp [PlaybackState.playingNoneBack, PlaybackState.takingBack_of_history_eq_nil hempty]
  · intro before track after r hsplit hlt hbefore hplays
    obtain ⟨events, htold, hstarts⟩ := run_previous_of_plays hfree hw hsplit hlt hbefore hplays
    obtain rfl := Option.some.inj (hrun.symm.trans hstarts)
    exact ⟨rfl, htold, rfl, hkeeps.sameKeys hplays,
      PlaybackState.history_playingBack hsplit _ _,
      ⟨_, Queue.renews_iff.mpr rfl, PlaybackState.items_playingBack _ _ _ _⟩, rfl⟩
  · intro hne hnone
    obtain ⟨events, htold, hfails⟩ := run_previous_of_none hfree hw hnone
    obtain rfl := Option.some.inj (hrun.symm.trans hfails)
    have hsome : (c.state.queue.history.take maxPreviousAttempts).length ≠ 0 := by
      simpa [maxPreviousAttempts] using hne
    refine ⟨?_, htold, rfl, rfl, rfl⟩
    dsimp only
    rw [nothingLeft, if_neg hsome, List.length_take]
  · cases hends with
    | @plays events before after track r hsplit hlt hbefore hplays htold =>
      refine ⟨before ++ [track], ⟨after, by simp [hsplit]⟩, ?_, htold⟩
      rw [List.length_append, List.length_singleton]
      exact hlt
    | fails hnone htold => exact ⟨_, List.take_prefix _ _, List.length_take_le _ _, htold⟩

/-- The latest of three played tracks does not play any more.  The second one is started; its entry
in the queue gets the name that the resolver has found, and the track that was playing comes to the
head. -/
theorem previous_past_one_that_fails :
    let o : Outside := ⟨fun track => .ok (some ⟨{ track with name := "Siete" }, "found"⟩),
      fun source => if source.url = "gone" then .error .emptyQueue else .ok ()⟩
    let entry : Track := { Track.remote "7" with inPlaylist := false }
    let c := System.blank.controller.update fun s =>
      { s with
        queue := ⟨[entry, .direct "next"], [.direct "gone", .remote "7", .direct "old"]⟩
        record := some ⟨.direct "now", "now", false, 0, 0⟩ }
    c.IsFree ∧ o.Answers o.collaborators ∧ o.KeepsKeys ∧
      ∃ run, c.run o.collaborators .previous = some run ∧
        run.answer = .outcome (.ok .started) ∧
        run.controller.state.record =
          some ⟨{ Track.remote "7" with name := "Siete" }, "found", false, 1, 2⟩ ∧
        run.controller.state.queue.history = [.direct "old"] ∧
        run.controller.state.queue.items =
          [.direct "now", { entry with name := "Siete" }, .direct "next"] := by
  intro o entry c
  have hfree : c.IsFree := ⟨rfl, rfl⟩
  have hw : o.Answers o.collaborators := o.answers_collaborators
  have hkeeps : o.KeepsKeys := by
    intro track r hreply
    cases hreply
    exact ⟨rfl, rfl⟩
  have hgone : o.plays? (.direct "gone") = none := by decide +kernel
  have hseven : o.plays? (.remote "7") =
      some ⟨{ Track.remote "7" with name := "Siete" }, "found"⟩ := by decide +kernel
  obtain ⟨run, hrun, -, hstarts, -⟩ := previous_of_history hfree hw hkeeps
  obtain ⟨hanswer, -, hrecord, -, hhistory, ⟨renewed, hrenews, hitems⟩, -⟩ :=
    hstarts [.direct "gone"] (.remote "7") [.direct "old"] _ rfl (by decide)
      (by simpa using hgone) hseven
  obtain rfl := Queue.renews_iff.mp hrenews
  exact ⟨hfree, hw, hkeeps, run, hrun, hanswer, hrecord, hhistory,
    hitems.trans (by decide +kernel)⟩

/-! ## Going back from the next track -/

/-- Taken out of its queue and put back at the head, a track is where it was. -/
theorem identities_turned_one {head : Track} (mode : PlayMode) (hplain : Plain (head :: rest))
    (hdiffers : ∀ item ∈ rest, head.Differs item) :
    ((turned mode 1 (head :: rest)).map Track.identity?).filter (fun i => i ≠ head.identity?) =
      rest.map Track.identity? := by
  have hrest : (rest.map Track.identity?).filter (fun i => i ≠ head.identity?) =
      rest.map Track.identity? := by
    refine List.filter_eq_self.mpr ?_
    intro i hi
    obtain ⟨item, hitem, rfl⟩ := List.mem_map.mp hi
    have hhead : head.HasOneIdentity := hplain head List.mem_cons_self
    have hother : item.HasOneIdentity := hplain item (List.mem_cons_of_mem _ hitem)
    have hne : item.identity? ≠ head.identity? := by
      intro heq
      have hsame := (Track.same_iff hhead hother).mpr heq.symm
      rw [hdiffers item hitem] at hsame
      cases hsame
    exact decide_eq_true hne
  cases hloop : mode.isLoop with
  | true =>
    simp only [turned, hloop, if_true, List.drop_succ_cons, List.drop_zero, List.take_succ_cons,
      List.take_zero, List.map_append, List.filter_append, hrest]
    simp
  | false =>
    simp only [turned, hloop, Bool.false_eq_true, if_false, List.drop_succ_cons, List.drop_zero,
      hrest]

/-- Outside the random loop, going back undoes `playNext`. -/
theorem previous_undoes_playNext (hfree : c.IsFree) (hw : o.Answers w) (hkeeps : o.KeepsKeys)
    (hmode : c.state.mode.mode ≠ .randomLoop) {current : PlaybackRecord} {head : Track}
    (hrecord : c.state.record = some current) (hitems : c.state.queue.items = head :: rest)
    (hnodup : c.state.queue.NoDuplicates) (hplain : Plain (current.track :: c.state.queue.items))
    (hroom : c.state.queue.history.length < Queue.historyLimit)
    (hcurrent : (o.plays? current.track).isSome) (hhead : (o.plays? head).isSome) :
    ∃ next back, c.run w .playNext = some next ∧ next.answer = .outcome (.ok .started) ∧
      next.controller.run w .previous = some back ∧ back.answer = .outcome (.ok .started) ∧
      (∃ record, back.controller.state.record = some record ∧
        record.track.identity? = current.track.identity?) ∧
      back.controller.state.queue.items.map Track.identity? =
        c.state.queue.items.map Track.identity? ∧
      back.controller.state.queue.history = c.state.queue.history := by
  obtain ⟨r, hr⟩ := Option.isSome_iff_exists.mp hhead
  obtain ⟨r', hr'⟩ := Option.isSome_iff_exists.mp hcurrent
  have hidentity : r.track.identity? = head.identity? := (hkeeps.sameKeys hr).identity?_eq
  have hidentity' : r'.track.identity? = current.track.identity? :=
    (hkeeps.sameKeys hr').identity?_eq
  have hone : r.track.HasOneIdentity := by
    rw [Track.HasOneIdentity, hidentity]
    exact hplain head (by simp [hitems])
  have hone' : r'.track.HasOneIdentity := by
    rw [Track.HasOneIdentity, hidentity']
    exact hplain current.track List.mem_cons_self
  have hqueue : Plain c.state.queue.items := hplain.of_subset (List.subset_cons_self _ _)
  -- The next track: the current one is the latest of the history.
  have hfirst : c.state.queue.items = [] ++ head :: rest := hitems
  obtain ⟨events, -, hnext⟩ := run_playNext_of_plays hfree hw hmode hfirst
    (List.forall_mem_nil _) hr
  let s := c.state.playingNext r 0 (c.serial + o.offered [] + 1)
  have hhistory : s.queue.history = [] ++ current.track :: c.state.queue.history := by
    have hfits : (current.track :: c.state.queue.history).length ≤ Queue.historyLimit := hroom
    rw [PlaybackState.history_playingNext, hrecord]
    exact List.take_of_length_le hfits
  have hturned : s.queue.items.map Track.identity? =
      (turned c.state.mode.mode 1 (head :: rest)).map Track.identity? := by
    rw [PlaybackState.identities_playingNext hqueue hone, hitems]
  have hplain' : Plain s.queue.items := by
    have hsub : turned c.state.mode.mode 1 (head :: rest) ⊆ c.state.queue.items := by
      rw [hitems]
      exact turned_subset _ _ _
    exact (hqueue.of_subset hsub).of_identities hturned
  -- Going back: the track that was taken comes to the head again.
  obtain ⟨events', -, hback⟩ := run_previous_of_plays (c := { c with
      state := s
      token := c.token + 1
      serial := c.serial + o.offered [] + 1 }) hfree hw hhistory (by decide)
    (List.forall_mem_nil _) hr'
  refine ⟨_, _, hnext, rfl, hback, rfl, ⟨_, rfl, hidentity'⟩, ?_, ?_⟩
  · have hlist : Plain (head :: rest) := by rwa [← hitems]
    have hrefresh : (s.queue.refresh r'.track).items.map Track.identity? =
        s.queue.items.map Track.identity? := Queue.identities_refresh hplain' hone'
    have hrest : ∀ item ∈ rest, head.Differs item := by
      rw [Queue.NoDuplicates, hitems] at hnodup
      exact (List.pairwise_cons.mp hnodup).1
    calc (s.playingBack r' 0 _).queue.items.map Track.identity?
        = ((s.queue.refresh r'.track).addFirst r.track).items.map Track.identity? := by
          rw [PlaybackState.items_playingBack, Queue.items_addFirst]
          rfl
      _ = head.identity? :: rest.map Track.identity? := by
          rw [Queue.identities_addFirst (hplain'.of_identities hrefresh) hone, hrefresh, hturned,
            hidentity, identities_turned_one _ hlist hrest]
      _ = c.state.queue.items.map Track.identity? := by rw [hitems, List.map_cons]
  · exact PlaybackState.history_playingBack hhistory _ _

/-- In a loop the track that is playing is also in the queue.  Going back finds the queue and the
history as they were. -/
theorem previous_undoes_playNext_of_loop :
    let o : Outside := ⟨fun track => .ok (some ⟨track, "found"⟩), fun _ => .ok ()⟩
    let c := System.blank.controller.update fun s =>
      { s with
        queue := ⟨[.direct "b", .remote "7", .direct "a"], [.direct "old"]⟩
        mode := ⟨.sequentialLoop, 1⟩
        record := some ⟨.direct "a", "a", false, 0, 0⟩ }
    c.IsFree ∧ o.Answers o.collaborators ∧ o.KeepsKeys ∧ c.state.mode.mode ≠ .randomLoop ∧
      c.state.queue.NoDuplicates ∧ Plain (.direct "a" :: c.state.queue.items) ∧
      ∃ next back, c.run o.collaborators .playNext = some next ∧
        next.controller.run o.collaborators .previous = some back ∧
        (∃ record, back.controller.state.record = some record ∧
          record.track.identity? = some (.direct "a")) ∧
        back.controller.state.queue.items.map Track.identity? =
          [some (.direct "b"), some (.remote "7"), some (.direct "a")] ∧
        back.controller.state.queue.history = [.direct "old"] := by
  intro o c
  have hfree : c.IsFree := ⟨rfl, rfl⟩
  have hw : o.Answers o.collaborators := o.answers_collaborators
  have hkeeps : o.KeepsKeys := Outside.keepsKeys_of_sameTrack _ _
  have hmode : c.state.mode.mode ≠ .randomLoop := by decide
  have hnodup : c.state.queue.NoDuplicates := by decide +kernel
  have hplain : Plain (.direct "a" :: c.state.queue.items) := by decide +kernel
  obtain ⟨next, back, hnext, -, hback, -, hrecord, hitems, hhistory⟩ :=
    previous_undoes_playNext hfree hw hkeeps hmode rfl rfl hnodup hplain (by decide)
      (by decide +kernel) (by decide +kernel)
  exact ⟨hfree, hw, hkeeps, hmode, hnodup, hplain, next, back, hnext, hback, hrecord, hitems,
    hhistory⟩

end Controller

end Jukebox
