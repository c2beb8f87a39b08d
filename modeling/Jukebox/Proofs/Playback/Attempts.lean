import Jukebox.Playback.Alone
import Jukebox.Proofs.Playback.Effect
import Jukebox.Proofs.Queue.Lap

/-!
# The attempts of a cascade that runs alone

The resolver and the player answer the same way each time.  Then a track either plays or it does
not, and a cascade on which no other operation intrudes starts the first track that plays among
those that it tries.  It tries the tracks of one lap (`Controller.playNext_started_iff`), which
are all tracks of the queue, except in the random loop where the count of the lap was not zero.
-/

namespace Jukebox

namespace PlaybackEvent

/-- The resolver is asked for a track, or the player is asked to start one. -/
def isTry : PlaybackEvent → Bool
  | .resolve _ _ | .start _ _ _ => true
  | _ => false

theorem OnlySays.tries {told : List PlaybackEvent} (h : OnlySays told) :
    told.filter isTry = [] := by
  rw [List.filter_eq_nil_iff]
  intro event hevent
  obtain ⟨text, rfl⟩ := h event hevent
  exact Bool.false_ne_true

end PlaybackEvent

/-- A resolver and a player that answer the same way each time. -/
structure Outside where
  resolver : Track → Except Error (Option ResolvedTrack)
  player : PlaybackSource → Except Error Unit

namespace Outside

/-- What a track is played from, if it can be found out. -/
def source? (o : Outside) (track : Track) : Option ResolvedTrack :=
  match track.directKey? with
  | some link => some ⟨track, link⟩
  | none =>
    match o.resolver track with
    | .ok found => found
    | .error _ => none

/-- What a track plays from, if it plays. -/
def plays? (o : Outside) (track : Track) : Option ResolvedTrack :=
  match o.source? track with
  | some r =>
    match o.player ⟨r.streamUrl, track.source, none⟩ with
    | .ok () => some r
    | .error _ => none
  | none => none

/-- The calls of operations are answered in this way. -/
structure Answers (o : Outside) (w : Collaborators) : Prop where
  resolve : ∀ events track, w.resolve events track = o.resolver track
  start : ∀ events source serial volume,
    w.play (events ++ [.start source serial volume]) = o.player source

/-- What answers the calls of operations in this way. -/
def collaborators (o : Outside) : Collaborators where
  resolve _ track := o.resolver track
  play events :=
    match events.getLast? with
    | some (.start source _ _) => o.player source
    | _ => .ok ()

theorem answers_collaborators (o : Outside) : o.Answers o.collaborators where
  resolve _ _ := rfl
  start _ _ _ _ := by simp [collaborators]

/-- The resolver was asked for the track unless it has a link, and the player for whatever it is
played from. -/
structure Tried (o : Outside) (track : Track) (events : List PlaybackEvent) : Prop where
  asked : track.directKey? = none → ∃ headers, .resolve track headers ∈ events
  offered : ∀ r, o.source? track = some r →
    ∃ serial volume, .start ⟨r.streamUrl, track.source, none⟩ serial volume ∈ events

theorem Tried.mono {o : Outside} {track : Track} {events more : List PlaybackEvent}
    (h : o.Tried track events) (hsub : events ⊆ more) : o.Tried track more where
  asked := fun hlink => (h.asked hlink).imp fun _ hmem => hsub hmem
  offered := by
    intro r hr
    obtain ⟨serial, volume, hmem⟩ := h.offered r hr
    exact ⟨serial, volume, hsub hmem⟩

/-- The resolver is asked for a track without a link. -/
def asks (headers : Headers) (track : Track) : List PlaybackEvent :=
  if track.directKey? = none then [.resolve track headers] else []

/-- The calls of an attempt with a track, after so many starts. -/
def calls (o : Outside) (headers : Headers) (volume : Single) (serial : Nat) (track : Track) :
    List PlaybackEvent :=
  asks headers track ++ (o.source? track).toList.map fun r =>
    .start ⟨r.streamUrl, track.source, none⟩ (serial + 1) volume

/-- How many of the tracks the player is offered when all of them are tried. -/
def offered (o : Outside) (tracks : List Track) : Nat :=
  tracks.countP fun track => (o.source? track).isSome

/-- The calls of attempts with one track after the other. -/
def tries (o : Outside) (headers : Headers) (volume : Single) :
    Nat → List Track → List PlaybackEvent
  | _, [] => []
  | serial, track :: tracks =>
    o.calls headers volume serial track ++
      o.tries headers volume (serial + o.offered [track]) tracks

variable {o : Outside} {track : Track} {tracks : List Track} {headers : Headers}
  {volume : Single} {serial : Nat}

theorem offered_cons (o : Outside) (track : Track) (tracks : List Track) :
    o.offered (track :: tracks) = o.offered [track] + o.offered tracks := by
  have hsplit : track :: tracks = [track] ++ tracks := rfl
  rw [hsplit]
  exact List.countP_append

theorem tried_of_mem (h : track ∈ tracks) :
    o.Tried track (o.tries headers volume serial tracks) := by
  induction tracks generalizing serial with
  | nil => cases h
  | cons first tracks ih =>
    rcases List.mem_cons.mp h with rfl | h
    · refine Tried.mono ⟨?_, ?_⟩ (List.subset_append_left _ _)
      · intro hlink
        exact ⟨headers, by simp [calls, asks, hlink]⟩
      · intro r hr
        exact ⟨serial + 1, volume, by simp [calls, hr]⟩
    · exact (ih h).mono (List.subset_append_right _ _)

end Outside

namespace Controller

variable {w : Collaborators} {o : Outside} {op : Nat}

/-! ## Steps that are counted -/

/-- A moment of an operation that runs alone. -/
structure Moment where
  controller : Controller
  events : List PlaybackEvent
  stage : Stage

/-- In at most so many steps the operation comes from one moment to another. -/
def GetsTo (w : Collaborators) (op n : Nat) (m m' : Moment) : Prop :=
  ∃ k ≤ n, ∀ fuel, runFor w op (fuel + k) m.controller m.events m.stage =
    runFor w op fuel m'.controller m'.events m'.stage

theorem GetsTo.refl (m : Moment) : GetsTo w op 0 m m := ⟨0, Nat.le_refl 0, fun _ => rfl⟩

theorem GetsTo.trans {n n' : Nat} {m m' m'' : Moment} (h : GetsTo w op n m m')
    (h' : GetsTo w op n' m' m'') : GetsTo w op (n + n') m m'' := by
  obtain ⟨k, hk, hrun⟩ := h
  obtain ⟨k', hk', hrun'⟩ := h'
  refine ⟨k + k', Nat.add_le_add hk hk', ?_⟩
  intro fuel
  rw [show fuel + (k + k') = fuel + k' + k by omega, hrun, hrun']

theorem GetsTo.mono {n n' : Nat} {m m' : Moment} (h : GetsTo w op n m m') (hle : n ≤ n') :
    GetsTo w op n' m m' := by
  obtain ⟨k, hk, hrun⟩ := h
  exact ⟨k, hk.trans hle, hrun⟩

variable {c d : Controller} {stage next : Stage} {events told : List PlaybackEvent}

theorem getsTo_of_step? (h : c.step? op stage (w.signal events stage) = some (d, next, told)) :
    GetsTo w op 1 ⟨c, events, stage⟩ ⟨d, events ++ told, next⟩ := by
  refine ⟨1, Nat.le_refl 1, ?_⟩
  intro fuel
  cases stage with
  | finished answer => cases h
  | _ => simp only [runFor, h]

theorem getsTo_of_locked (w : Collaborators) (op : Nat) (hfree : c.IsFree)
    (events : List PlaybackEvent) (hneed : stage.need = .lock) :
    GetsTo w op 1 ⟨c, events, stage⟩
      ⟨(c.locked op stage).1, events ++ (c.locked op stage).2.2, (c.locked op stage).2.1⟩ := by
  refine getsTo_of_step? ?_
  have hsignal : w.signal events stage = .go := by simp [Collaborators.signal, hneed]
  simp [step?, hneed, hsignal, hfree.1]

/-- An operation that comes to its end within its bound has run. -/
theorem runFor_eq_of_getsTo {n fuel : Nat} {all : List PlaybackEvent} {answer : Answer}
    (h : GetsTo w op n ⟨c, events, stage⟩ ⟨d, all, .finished answer⟩) (hle : n ≤ fuel) :
    runFor w op fuel c events stage = some ⟨d, all, answer⟩ := by
  obtain ⟨k, hk, hrun⟩ := h
  obtain ⟨rest, rfl⟩ : ∃ rest, fuel = rest + k := ⟨fuel - k, by omega⟩
  rw [hrun rest]
  simp only [runFor]

/-! ## One attempt -/

/-- The controller once tracks were tried in vain. -/
def tried (c : Controller) (o : Outside) (tracks : List Track) : Controller :=
  { c with serial := c.serial + o.offered tracks }

/-- The controller once a track was started. -/
def playing (c : Controller) (purpose : Purpose) (r : ResolvedTrack) (retries : Nat) :
    Controller :=
  { c with
    serial := c.serial + 1
    state := { c.state with
      record := some (c.state.newRecord r retries (c.serial + 1))
      queue := displace purpose (c.state.queue.refresh r.track) c.state.record } }

/-- Of all tracks exactly these were tried meanwhile, one after the other. -/
def TriesExactly (c : Controller) (o : Outside) (tracks : List Track)
    (told : List PlaybackEvent) : Prop :=
  told.filter PlaybackEvent.isTry =
    o.tries c.account.session.headers c.volume c.serial tracks

/-- The controller while the player is asked to start. -/
def launched (c : Controller) (op : Nat) (l : Launch) (r : ResolvedTrack) : Controller :=
  { c.update fun s => { s with record := some (s.newRecord r l.retries (c.serial + 1)) } with
    serial := c.serial + 1
    gateHeldBy := some op }

/-- The call of the player. -/
def startCall (c : Controller) (l : Launch) (r : ResolvedTrack) : PlaybackEvent :=
  .start ⟨r.streamUrl, l.track.source, l.offset⟩ (c.serial + 1) c.volume

/-- What a track is played from is found out, or the start fails. -/
theorem getsTo_source (hw : o.Answers w) (op : Nat) (c : Controller)
    (events : List PlaybackEvent) (l : Launch) :
    (∃ r, o.source? l.track = some r ∧
        GetsTo w op 2 ⟨c, events, .ask l⟩
          ⟨c, events ++ Outside.asks c.account.session.headers l.track, .admission l r⟩) ∨
      o.source? l.track = none ∧ ∃ e,
        GetsTo w op 2 ⟨c, events, .ask l⟩
          ⟨c, events ++ Outside.asks c.account.session.headers l.track ++ (failed l e).2,
            (failed l e).1⟩ := by
  cases hlink : l.track.directKey? with
  | some link =>
    have hsource : o.source? l.track = some ⟨l.track, link⟩ := by
      simp [Outside.source?, hlink]
    have hask : GetsTo w op 1 ⟨c, events, .ask l⟩
        ⟨c, events ++ [], .admission l ⟨l.track, link⟩⟩ := by
      refine getsTo_of_step? ?_
      simp [step?, Stage.need, Collaborators.signal, Launch.direct?, hlink]
    simp only [Outside.asks, hlink, reduceCtorEq, if_false]
    exact .inl ⟨_, hsource, hask.mono (by omega)⟩
  | none =>
    let call := PlaybackEvent.resolve l.track c.account.session.headers
    have hask : GetsTo w op 1 ⟨c, events, .ask l⟩ ⟨c, events ++ [call], .resolving l⟩ := by
      refine getsTo_of_step? ?_
      simp [step?, Stage.need, Collaborators.signal, Launch.direct?, hlink, call]
    have hsignal : w.signal (events ++ [call]) (.resolving l) =
        .resolved (o.resolver l.track) := by
      simp [Collaborators.signal, Stage.need, hw.resolve]
    have hanswer : GetsTo w op 1 ⟨c, events ++ [call], .resolving l⟩
        ⟨c, events ++ [call] ++ (resolved l (o.resolver l.track)).2,
          (resolved l (o.resolver l.track)).1⟩ := by
      refine getsTo_of_step? ?_
      simp [step?, Stage.need, hsignal]
    have hboth := hask.trans hanswer
    simp only [Outside.asks, hlink, if_true]
    cases hreply : o.resolver l.track with
    | error e =>
      rw [hreply] at hboth
      exact .inr ⟨by simp [Outside.source?, hlink, hreply], e, hboth⟩
    | ok found =>
      rw [hreply] at hboth
      cases found with
      | none => exact .inr ⟨by simp [Outside.source?, hlink, hreply], _, hboth⟩
      | some r =>
        simp only [resolved, List.append_nil] at hboth
        exact .inl ⟨r, by simp [Outside.source?, hlink, hreply], hboth⟩

theorem getsTo_starting (hfree : c.IsFree) {l : Launch} (htoken : l.token = c.token)
    (r : ResolvedTrack) :
    GetsTo w op 2 ⟨c, events, .admission l r⟩
      ⟨c.launched op l r, events ++ [c.startCall l r],
        .starting l r c.state.record (c.state.newRecord r l.retries (c.serial + 1)).paused⟩ := by
  let inside : Controller := { c with serial := c.serial + 1, gateHeldBy := some op }
  have henter : GetsTo w op 1 ⟨c, events, .admission l r⟩
      ⟨inside, events ++ [], .install l r (c.serial + 1)⟩ := by
    refine getsTo_of_step? ?_
    simp [step?, Stage.need, Collaborators.signal, hfree.2, admitted, isCancelled, htoken, inside]
  have hinstall : GetsTo w op 1 ⟨inside, events, .install l r (c.serial + 1)⟩
      ⟨c.launched op l r, events ++ [c.startCall l r],
        .starting l r c.state.record (c.state.newRecord r l.retries (c.serial + 1)).paused⟩ := by
    refine getsTo_of_step? ?_
    simp [step?, Stage.need, Collaborators.signal, hfree.1, locked, update, launched, startCall,
      inside]
  rw [List.append_nil] at henter
  exact henter.trans hinstall

/-- The player refuses, and everything but the serial is as before. -/
theorem getsTo_rollBack (hw : o.Answers w) (hfree : c.IsFree) {l : Launch} {r : ResolvedTrack}
    {paused : Bool} {e : Error}
    (hplayer : o.player ⟨r.streamUrl, l.track.source, l.offset⟩ = .error e) :
    let d : Controller := { c with serial := c.serial + 1 }
    GetsTo w op 2
      ⟨c.launched op l r, events ++ [c.startCall l r], .starting l r c.state.record paused⟩
      ⟨d, events ++ [c.startCall l r] ++ (failed l e).2, (failed l e).1⟩ := by
  intro d
  have hsignal : w.signal (events ++ [c.startCall l r]) (.starting l r c.state.record paused) =
      .played (.error e) := by
    simp [Collaborators.signal, Stage.need, startCall, hw.start, hplayer]
  have hrefused : GetsTo w op 1
      ⟨c.launched op l r, events ++ [c.startCall l r], .starting l r c.state.record paused⟩
      ⟨c.launched op l r, events ++ [c.startCall l r] ++ [],
        .rollBack l c.state.record e⟩ := by
    refine getsTo_of_step? ?_
    simp [step?, Stage.need, hsignal, played]
  have hback : GetsTo w op 1
      ⟨c.launched op l r, events ++ [c.startCall l r], .rollBack l c.state.record e⟩
      ⟨d, events ++ [c.startCall l r] ++ (failed l e).2, (failed l e).1⟩ := by
    refine getsTo_of_step? ?_
    simp [step?, Stage.need, Collaborators.signal, locked, launched, update, hfree.1, hfree.2, d]
  rw [List.append_nil] at hrefused
  exact hrefused.trans hback

/-- The player accepts, and the new record stays. -/
theorem getsTo_commit (hw : o.Answers w) (hfree : c.IsFree) {l : Launch} {r : ResolvedTrack}
    {paused : Bool} (hplayer : o.player ⟨r.streamUrl, l.track.source, l.offset⟩ = .ok ()) :
    ∃ told : List PlaybackEvent, told.filter PlaybackEvent.isTry = [] ∧
      GetsTo w op 3
        ⟨c.launched op l r, events ++ [c.startCall l r], .starting l r c.state.record paused⟩
        ⟨c.playing l.purpose r l.retries, events ++ [c.startCall l r] ++ told,
          (succeeded l).1⟩ := by
  let d := c.playing l.purpose r l.retries
  let words := .started (d.state.nowPlaying r.track) :: (succeeded l).2
  have hwords : words.filter PlaybackEvent.isTry = [] := (onlySays_succeeded l).tries
  have hsignal : w.signal (events ++ [c.startCall l r]) (.starting l r c.state.record paused) =
      .played (.ok ()) := by
    simp [Collaborators.signal, Stage.need, startCall, hw.start, hplayer]
  have hcommit : ∀ before, GetsTo w op 1
      ⟨c.launched op l r, before, .commit l r c.state.record⟩
      ⟨d, before ++ words, (succeeded l).1⟩ := by
    intro before
    refine getsTo_of_step? ?_
    simp [step?, Stage.need, Collaborators.signal, locked, launched, update, hfree.1, hfree.2,
      playing, words, d]
  cases paused with
  | false =>
    have haccepted : GetsTo w op 1
        ⟨c.launched op l r, events ++ [c.startCall l r], .starting l r c.state.record false⟩
        ⟨c.launched op l r, events ++ [c.startCall l r] ++ [], .commit l r c.state.record⟩ := by
      refine getsTo_of_step? ?_
      simp [step?, Stage.need, hsignal, played]
    rw [List.append_nil] at haccepted
    exact ⟨words, hwords, (haccepted.trans (hcommit _)).mono (by omega)⟩
  | true =>
    have haccepted : GetsTo w op 1
        ⟨c.launched op l r, events ++ [c.startCall l r], .starting l r c.state.record true⟩
        ⟨c.launched op l r, events ++ [c.startCall l r] ++ [.setPaused true],
          .pausing l r c.state.record⟩ := by
      refine getsTo_of_step? ?_
      simp [step?, Stage.need, hsignal, played]
    have hrests : ∀ before, GetsTo w op 1
        ⟨c.launched op l r, before, .pausing l r c.state.record⟩
        ⟨c.launched op l r, before ++ [], .commit l r c.state.record⟩ := by
      intro before
      refine getsTo_of_step? ?_
      simp [step?, Stage.need, Collaborators.signal, played]
    have hall := (haccepted.trans (hrests _)).trans (hcommit _)
    simp only [List.append_nil, List.append_assoc] at hall ⊢
    exact ⟨.setPaused true :: words, hwords, hall⟩

/-- How the attempt with one track ends. -/
inductive Attempted (o : Outside) (w : Collaborators) (op : Nat) (c : Controller)
    (events : List PlaybackEvent) (l : Launch) : Prop
  | plays {r : ResolvedTrack} {told : List PlaybackEvent}
      (hplays : o.plays? l.track = some r)
      (htold : c.TriesExactly o [l.track] told)
      (hgets : GetsTo w op 7 ⟨c, events, .ask l⟩
        ⟨c.playing l.purpose r l.retries, events ++ told, (succeeded l).1⟩)
  | fails {e : Error} {told : List PlaybackEvent} (hplays : o.plays? l.track = none)
      (htold : c.TriesExactly o [l.track] told)
      (hgets : GetsTo w op 6 ⟨c, events, .ask l⟩
        ⟨c.tried o [l.track], events ++ told, (failed l e).1⟩)

theorem attempted (hw : o.Answers w) (op : Nat) (hfree : c.IsFree) {l : Launch}
    (hoffset : l.offset = none) (htoken : l.token = c.token) (events : List PlaybackEvent) :
    Attempted o w op c events l := by
  let asks := Outside.asks c.account.session.headers l.track
  have hasks : asks.filter PlaybackEvent.isTry = asks := by
    simp only [asks, Outside.asks]
    split <;> rfl
  rcases getsTo_source hw op c events l with ⟨r, hsource, hgets⟩ | ⟨hsource, e, hgets⟩
  · have hstart := hgets.trans (getsTo_starting hfree htoken r)
    have hexactly : ∀ {told : List PlaybackEvent}, told.filter PlaybackEvent.isTry = [] →
        c.TriesExactly o [l.track] (asks ++ ([c.startCall l r] ++ told)) := by
      intro told htold
      have hcall : [c.startCall l r].filter PlaybackEvent.isTry = [c.startCall l r] := rfl
      rw [TriesExactly, List.filter_append, List.filter_append, hasks, hcall, htold]
      simp [Outside.tries, Outside.calls, startCall, hsource, hoffset, asks]
    have htried : c.tried o [l.track] = { c with serial := c.serial + 1 } := by
      simp [tried, Outside.offered, hsource]
    cases hplayer : o.player ⟨r.streamUrl, l.track.source, l.offset⟩ with
    | ok =>
      obtain ⟨told, htold, hcommit⟩ := getsTo_commit hw hfree hplayer
      have hall := hstart.trans hcommit
      rw [hoffset] at hplayer
      have hplays : o.plays? l.track = some r := by simp [Outside.plays?, hsource, hplayer]
      simp only [List.append_assoc] at hall
      exact .plays hplays (hexactly htold) hall
    | error e =>
      have hall := hstart.trans (getsTo_rollBack hw hfree hplayer)
      rw [hoffset] at hplayer
      have hplays : o.plays? l.track = none := by simp [Outside.plays?, hsource, hplayer]
      simp only [← htried, List.append_assoc] at hall
      exact .fails hplays (hexactly (onlySays_failed _ _).tries) hall
  · have hplays : o.plays? l.track = none := by simp [Outside.plays?, hsource]
    have htried : c.tried o [l.track] = c := by simp [tried, Outside.offered, hsource]
    rw [List.append_assoc] at hgets
    refine .fails hplays ?_ (by rw [htried]; exact hgets.mono (by omega))
    rw [TriesExactly, List.filter_append, hasks, (onlySays_failed _ _).tries]
    simp [Outside.tries, Outside.calls, hsource, asks]

/-! ## All attempts -/

/-- The tracks that a cascade tries in so many attempts. -/
def upcoming (c : Controller) (n : Nat) : List Track :=
  Jukebox.upcoming n c.state.queue.items c.state.mode c.state.words

/-- The tracks of one lap of the queue. -/
def lap (c : Controller) : List Track :=
  Jukebox.lap c.state.queue.items c.state.mode c.state.words

/-- The controller once so many tracks were taken from the queue, or all that there are. -/
def taking : Nat → Controller → Controller
  | 0, c => c
  | n + 1, c =>
    match c.state.takeNext? with
    | some (_, state) => taking n { c with state }
    | none => c

theorem taking_of_takeNext?_eq_none (h : c.state.takeNext? = none) (n : Nat) :
    c.taking n = c := by
  cases n with
  | zero => rfl
  | succ n => simp only [taking, h]

theorem taking_of_takeNext? {track : Track} {state : PlaybackState}
    (h : c.state.takeNext? = some (track, state)) (n : Nat) :
    c.taking (n + 1) = ({ c with state } : Controller).taking n := by
  simp only [taking, h]

/-- Taking tracks changes the queue, the count of the lap and the random words, and nothing else. -/
theorem taking_eq (c : Controller) (n : Nat) :
    ∃ queue mode words, c.taking n = { c with state := { c.state with queue, mode, words } } := by
  induction n generalizing c with
  | zero => exact ⟨_, _, _, rfl⟩
  | succ n ih =>
    cases hnext : c.state.takeNext? with
    | none => exact ⟨_, _, _, taking_of_takeNext?_eq_none hnext _⟩
    | some taken =>
      obtain ⟨queue, mode, words, hstate⟩ := PlaybackState.takeNext?_eq hnext
      obtain ⟨queue', mode', words', heq⟩ := ih { c with state := taken.2 }
      refine ⟨queue', mode', words', ?_⟩
      rw [taking_of_takeNext? hnext, heq, hstate]

theorem taking_tried (o : Outside) (tracks : List Track) (n : Nat) :
    (c.tried o tracks).taking n = (c.taking n).tried o tracks := by
  induction n generalizing c with
  | zero => rfl
  | succ n ih =>
    cases hnext : c.state.takeNext? with
    | none =>
      rw [taking_of_takeNext?_eq_none hnext]
      exact taking_of_takeNext?_eq_none (c := c.tried o tracks) hnext _
    | some taken =>
      rw [taking_of_takeNext? hnext, ← ih]
      exact taking_of_takeNext? (c := c.tried o tracks) hnext n

theorem tried_tried (c : Controller) (o : Outside) (track : Track) (tracks : List Track) :
    (c.tried o [track]).tried o tracks = c.tried o (track :: tracks) := by
  simp only [tried, o.offered_cons track tracks, Nat.add_assoc]

theorem upcoming_of_takeNext?_eq_none (h : c.state.takeNext? = none) (n : Nat) :
    c.upcoming n = [] := by
  have hnone : advance? c.state.queue.items c.state.mode c.state.words = none := by
    simpa [PlaybackState.takeNext?, Queue.next?] using h
  cases n with
  | zero => rfl
  | succ n => simp [upcoming, Jukebox.upcoming, hnone]

theorem upcoming_of_takeNext? {track : Track} {state : PlaybackState}
    (h : c.state.takeNext? = some (track, state)) (n : Nat) :
    c.upcoming (n + 1) = track :: ({ c with state } : Controller).upcoming n := by
  obtain ⟨taken, htaken, hstate⟩ := Option.map_eq_some_iff.mp h
  obtain ⟨a, hadvance, rfl⟩ := Option.map_eq_some_iff.mp htaken
  cases hstate
  simp [upcoming, Jukebox.upcoming, hadvance]

/-- An attempt that failed is told of, and the next one is due. -/
theorem failed_of_search {l : Launch} {s : Search} {generation : Nat}
    (h : l.purpose = .search s generation) (e : Error) :
    ∃ next : Search, next.cascade = s.cascade ∧ next.budget = s.budget ∧
      next.attempt = s.attempt + 1 ∧ (failed l e).1 = .reported next := by
  refine ⟨{ s with attempt := s.attempt + 1, reporter := (s.reporter.record l.track e).1 }, ?_⟩
  simp [failed, h]

/-- After one track others were tried. -/
theorem TriesExactly.cons {track : Track} {tracks : List Track} {state : PlaybackState}
    {more : List PlaybackEvent} (h : c.TriesExactly o [track] told)
    (h' : (({ c with state } : Controller).tried o [track]).TriesExactly o tracks more) :
    c.TriesExactly o (track :: tracks) (told ++ more) := by
  have hfirst : told.filter PlaybackEvent.isTry = _ := h
  have hrest : more.filter PlaybackEvent.isTry = _ := h'
  rw [TriesExactly, List.filter_append, hfirst, hrest]
  simp [Outside.tries, tried]

/-- How the attempts of a cascade end. -/
inductive Sought (o : Outside) (w : Collaborators) (op n : Nat) (c : Controller)
    (events : List PlaybackEvent) (s : Search) : Prop
  /-- The first track that plays is started, and those before it do not play. -/
  | plays {told : List PlaybackEvent} {before after : List Track} {track : Track}
      {r : ResolvedTrack} (purpose : Purpose)
      (hpurpose : ∃ s generation, purpose = .search s generation)
      (htracks : c.upcoming n = before ++ track :: after)
      (hbefore : ∀ other ∈ before, o.plays? other = none) (hplays : o.plays? track = some r)
      (htold : c.TriesExactly o (before ++ [track]) told)
      (hgets : GetsTo w op (8 * n + 1) ⟨c, events, (c.nextAttempt s).1⟩
        ⟨((c.taking (before.length + 1)).tried o before).playing purpose r
          (s.attempt + before.length), events ++ told, .settle s.cascade .started⟩)
  /-- All attempts are made, and no track plays. -/
  | exhausts {told : List PlaybackEvent} (hlength : (c.upcoming n).length = n)
      (htracks : ∀ track ∈ c.upcoming n, o.plays? track = none)
      (htold : c.TriesExactly o (c.upcoming n) told)
      (hgets : GetsTo w op (8 * n + 1) ⟨c, events, (c.nextAttempt s).1⟩
        ⟨(c.taking n).tried o (c.upcoming n), events ++ told, .settle s.cascade .exhausted⟩)
  /-- No track plays, and there are not even enough of them. -/
  | runsDry {told : List PlaybackEvent} (hlength : (c.upcoming n).length < n)
      (htracks : ∀ track ∈ c.upcoming n, o.plays? track = none)
      (htold : c.TriesExactly o (c.upcoming n) told)
      (hgets : GetsTo w op (8 * n + 1) ⟨c, events, (c.nextAttempt s).1⟩
        ⟨((c.taking n).tried o (c.upcoming n)).update (·.closeCascade s.cascade),
          events ++ told, .settle s.cascade .queueEmpty⟩)

variable {n : Nat} {s next : Search} {track : Track}

/-- One more track was tried first, and it does not play. -/
theorem Sought.cons {state : PlaybackState} (hnext : c.state.takeNext? = some (track, state))
    (hplays : o.plays? track = none)
    (htold : c.TriesExactly o [track] told)
    (hcascade : next.cascade = s.cascade) (hattempt : next.attempt = s.attempt + 1)
    (hfirst : GetsTo w op 8 ⟨c, events, (c.nextAttempt s).1⟩
      ⟨({ c with state } : Controller).tried o [track], events ++ told,
        ((({ c with state } : Controller).tried o [track]).nextAttempt next).1⟩)
    (hlater : Sought o w op n (({ c with state } : Controller).tried o [track]) (events ++ told)
      next) : Sought o w op (n + 1) c events s := by
  let d := ({ c with state } : Controller).tried o [track]
  have htracks : c.upcoming (n + 1) = track :: d.upcoming n := upcoming_of_takeNext? hnext n
  have htaking : ∀ k tracks, (d.taking k).tried o tracks =
      (c.taking (k + 1)).tried o (track :: tracks) := by
    intro k tracks
    rw [taking_tried, tried_tried, taking_of_takeNext? hnext]
  have hnone : ∀ {tracks : List Track}, (∀ other ∈ tracks, o.plays? other = none) →
      ∀ other ∈ track :: tracks, o.plays? other = none :=
    fun htracks => List.forall_mem_cons.mpr ⟨hplays, htracks⟩
  have hle : 8 + (8 * n + 1) ≤ 8 * (n + 1) + 1 := by omega
  cases hlater with
  | @plays told' before after other r purpose hpurpose hsplit hbefore hother htold' hgets =>
    have hall := (hfirst.trans hgets).mono hle
    rw [hcascade, hattempt, List.append_assoc, Nat.add_assoc, Nat.add_comm 1, htaking] at hall
    have hsplit' : c.upcoming (n + 1) = (track :: before) ++ other :: after :=
      htracks.trans (congrArg (track :: ·) hsplit)
    exact .plays purpose hpurpose hsplit' (hnone hbefore) hother (htold.cons htold') hall
  | exhausts hlength hfails htold' hgets =>
    have hall := (hfirst.trans hgets).mono hle
    rw [hcascade, List.append_assoc, htaking, ← htracks] at hall
    refine .exhausts ?_ ?_ ?_ hall
    · rw [htracks, List.length_cons]
      exact congrArg (· + 1) hlength
    · rw [htracks]
      exact hnone hfails
    · rw [htracks]
      exact htold.cons htold'
  | runsDry hlength hfails htold' hgets =>
    have hall := (hfirst.trans hgets).mono hle
    rw [hcascade, List.append_assoc, htaking, ← htracks] at hall
    refine .runsDry ?_ ?_ ?_ hall
    · rw [htracks, List.length_cons]
      exact Nat.succ_lt_succ hlength
    · rw [htracks]
      exact hnone hfails
    · rw [htracks]
      exact htold.cons htold'

theorem sought (hw : o.Answers w) (op n : Nat) (hfree : c.IsFree) {s : Search}
    (htoken : s.cascade.token = c.token) (hbudget : s.attempt + n = s.budget)
    (events : List PlaybackEvent) : Sought o w op n c events s := by
  induction n generalizing c s events with
  | zero =>
    have hover : (c.nextAttempt s).1 = .settle s.cascade .exhausted := by
      have hlast : ¬s.attempt < s.budget := by omega
      simp [nextAttempt, hlast, endSearch]
    have hgets : GetsTo w op 1 ⟨c, events, (c.nextAttempt s).1⟩
        ⟨c, events ++ [], .settle s.cascade .exhausted⟩ := by
      rw [hover, List.append_nil]
      exact (GetsTo.refl _).mono (by omega)
    have htold : c.TriesExactly o (c.upcoming 0) [] := rfl
    exact .exhausts rfl (List.forall_mem_nil _) htold hgets
  | succ n ih =>
    have htake : (c.nextAttempt s).1 = .take s := by
      have hlt : s.attempt < s.budget := by omega
      simp [nextAttempt, hlt, isCancelled, htoken]
    have hlocked := getsTo_of_locked w op hfree events (rfl : (Stage.take s).need = .lock)
    cases hnext : c.state.takeNext? with
    | none =>
      have hnone := upcoming_of_takeNext?_eq_none hnext (n + 1)
      have hgets : GetsTo w op (8 * (n + 1) + 1) ⟨c, events, (c.nextAttempt s).1⟩
          ⟨((c.taking (n + 1)).tried o (c.upcoming (n + 1))).update (·.closeCascade s.cascade),
            events ++ s.reporter.summary, .settle s.cascade .queueEmpty⟩ := by
        simp only [locked, hnext, endSearch] at hlocked
        rw [hnone, taking_of_takeNext?_eq_none hnext, htake]
        exact hlocked.mono (by omega)
      refine .runsDry ?_ ?_ ?_ hgets
      · simp [hnone]
      · simp [hnone]
      · rw [hnone]
        exact (onlySays_summary s.reporter).tries
    | some taken =>
      obtain ⟨track, state⟩ := taken
      let l : Launch := ⟨track, none, s.attempt, .search s c.state.generation⟩
      let taken : Controller := { c with state }
      have htaken : taken.IsFree := hfree
      have htakes : GetsTo w op 1 ⟨c, events, (c.nextAttempt s).1⟩ ⟨taken, events, .ask l⟩ := by
        simp only [locked, hnext, List.append_nil] at hlocked
        rw [htake]
        exact hlocked
      have hltoken : l.token = taken.token := htoken
      have hattempt : Attempted o w op taken events l := attempted hw op htaken rfl hltoken events
      cases hattempt with
      | plays hplays htold hgets =>
        have hall := (htakes.trans hgets).mono (by omega : 1 + 7 ≤ 8 * (n + 1) + 1)
        have hsplit : c.upcoming (n + 1) = [] ++ track :: taken.upcoming n :=
          upcoming_of_takeNext? hnext n
        have htaking : c.taking 1 = taken := taking_of_takeNext? hnext 0
        refine .plays l.purpose ⟨s, _, rfl⟩ hsplit (List.forall_mem_nil _)
          hplays htold ?_
        rw [List.length_nil, htaking]
        exact hall
      | @fails e told hplays htold hgets =>
        obtain ⟨next, hcascade, hbudget', hattempt', hfailed⟩ :=
          failed_of_search (rfl : l.purpose = .search s c.state.generation) e
        rw [hfailed] at hgets
        have hdfree : (taken.tried o [track]).IsFree := hfree
        have hdtoken : next.cascade.token = (taken.tried o [track]).token := by
          rw [hcascade]
          exact htoken
        let words := ((taken.tried o [track]).nextAttempt next).2
        have hgoes : GetsTo w op 1 ⟨taken.tried o [track], events ++ told, .reported next⟩
            ⟨taken.tried o [track], events ++ told ++ words,
              ((taken.tried o [track]).nextAttempt next).1⟩ := by
          refine getsTo_of_step? ?_
          simp [step?, Stage.need, Collaborators.signal, words]
        have hall := (htakes.trans hgets).trans hgoes
        rw [List.append_assoc] at hall
        have htold' : c.TriesExactly o [track] (told ++ words) := by
          rw [TriesExactly, List.filter_append, (onlySays_nextAttempt _ _).tries, List.append_nil]
          exact htold
        have hlater := ih hdfree hdtoken (by omega) (events ++ (told ++ words))
        exact .cons hnext hplays htold' hcascade hattempt' hall hlater

theorem TriesExactly.tried {tracks : List Track} (h : c.TriesExactly o tracks told)
    (hmem : track ∈ tracks) : o.Tried track told := by
  have hall : o.Tried track
      (o.tries c.account.session.headers c.volume c.serial tracks) :=
    Outside.tried_of_mem hmem
  have hexactly : told.filter PlaybackEvent.isTry = _ := h
  rw [← hexactly] at hall
  exact hall.mono List.filter_sublist.subset

/-- How the attempts of a cascade with some tracks end. -/
inductive Searched (o : Outside) (w : Collaborators) (op n : Nat) (c : Controller)
    (events : List PlaybackEvent) (s : Search) (tracks : List Track) : Prop
  /-- The first track that plays is started, and those before it do not play. -/
  | plays {d : Controller} {told : List PlaybackEvent} {before after : List Track}
      {track : Track} {r : ResolvedTrack}
      (htracks : tracks = before ++ track :: after)
      (hbefore : ∀ other ∈ before, o.plays? other = none) (hplays : o.plays? track = some r)
      (hfree : d.IsFree)
      (hrecord : ∃ paused serial, d.state.record =
        some ⟨r.track, r.streamUrl, paused, s.attempt + before.length, serial⟩)
      (hgets : GetsTo w op n ⟨c, events, (c.nextAttempt s).1⟩
        ⟨d, events ++ told, .settle s.cascade .started⟩)
  | fails {d : Controller} {told : List PlaybackEvent} {outcome : PlayOutcome}
      (houtcome : outcome = .exhausted ∨ outcome = .queueEmpty)
      (htracks : ∀ track ∈ tracks, o.plays? track = none ∧ o.Tried track told)
      (hfree : d.IsFree) (hrecord : d.state.record = c.state.record)
      (hgets : GetsTo w op n ⟨c, events, (c.nextAttempt s).1⟩
        ⟨d, events ++ told, .settle s.cascade outcome⟩)

theorem searched (hw : o.Answers w) (op n : Nat) (hfree : c.IsFree) {s : Search}
    (htoken : s.cascade.token = c.token) (hended : s.cascade.ended = none)
    (hbudget : s.attempt + n = s.budget) (events : List PlaybackEvent) :
    Searched o w op (8 * n + 1) c events s (c.upcoming n) := by
  have htaking : ∀ n, (c.taking n).IsFree ∧ (c.taking n).state.record = c.state.record := by
    intro n
    obtain ⟨queue, mode, words, heq⟩ := c.taking_eq n
    rw [heq]
    exact ⟨hfree, rfl⟩
  cases sought hw op n hfree htoken hbudget events with
  | @plays told before after track r purpose hpurpose htracks hbefore hplays htold hgets =>
    refine .plays htracks hbefore hplays ?_ ⟨_, _, rfl⟩ hgets
    exact (htaking (before.length + 1)).1
  | exhausts hlength htracks htold hgets =>
    have htried : ∀ track ∈ c.upcoming n, o.plays? track = none ∧ o.Tried track _ :=
      fun track hmem => ⟨htracks track hmem, htold.tried hmem⟩
    refine .fails (.inl rfl) htried ?_ ?_ hgets
    · exact (htaking n).1
    · exact (htaking n).2
  | runsDry hlength htracks htold hgets =>
    have htried : ∀ track ∈ c.upcoming n, o.plays? track = none ∧ o.Tried track _ :=
      fun track hmem => ⟨htracks track hmem, htold.tried hmem⟩
    refine .fails (.inr rfl) htried ?_ ?_ hgets
    · exact (htaking n).1
    · exact (closeCascade_record_of_ended hended).trans (htaking n).2

/-- As many attempts as a cascade makes are one lap. -/
theorem upcoming_budget (c : Controller) :
    c.upcoming (Nat.max c.state.queue.length 1) = c.lap := by
  have hlap : c.upcoming c.state.queue.length = c.lap := upcoming_length _ _ _
  by_cases hempty : c.state.queue.items = []
  · have hnone : c.state.takeNext? = none := by
      simp [PlaybackState.takeNext?, Queue.next?, hempty, advance?]
    rw [← hlap, upcoming_of_takeNext?_eq_none hnone, upcoming_of_takeNext?_eq_none hnone]
  · have hpos : 1 ≤ c.state.queue.length := List.length_pos_iff.mpr hempty
    have hmax : Nat.max c.state.queue.length 1 = c.state.queue.length := Nat.max_eq_left hpos
    rw [← hlap, hmax]

/-- The end of a cascade after its attempts. -/
theorem getsTo_settled (w : Collaborators) (op : Nat) (hfree : c.IsFree) (cascade : Cascade)
    (outcome : PlayOutcome) (events : List PlaybackEvent) :
    let last := finalOutcome (c.state.closeCascade cascade) outcome
    GetsTo w op 2 ⟨c, events, .settle cascade outcome⟩
      ⟨(c.update (·.closeCascade cascade)).update (·.closeCascade cascade),
        events ++ closingWords last, .finished (.outcome (.ok last))⟩ := by
  intro last
  have hsettle := getsTo_of_locked w op hfree events
    (rfl : (Stage.settle cascade outcome).need = .lock)
  have hclosed : (c.update (·.closeCascade cascade)).IsFree := hfree
  have hclose := fun before => getsTo_of_locked w op hclosed before
    (rfl : (Stage.close cascade (.ok last) none).need = .lock)
  have hboth := hsettle.trans (hclose _)
  simp only [locked, Option.toList, List.map_nil, List.append_nil] at hboth
  exact hboth

theorem getsTo_finished (w : Collaborators) (op : Nat) (hfree : c.IsFree) {cascade : Cascade}
    (hended : cascade.ended = none) (outcome : PlayOutcome) (events : List PlaybackEvent) :
    ∃ (d : Controller) (told : List PlaybackEvent), d.state.record = c.state.record ∧
      GetsTo w op 2 ⟨c, events, .settle cascade outcome⟩
        ⟨d, events ++ told, .finished (.outcome (.ok (finalOutcome
          (c.state.closeCascade cascade) outcome)))⟩ := by
  refine ⟨_, _, ?_, getsTo_settled w op hfree cascade outcome events⟩
  simp only [update]
  rw [closeCascade_record_of_ended hended, closeCascade_record_of_ended hended]

/-- While nothing else runs, `playNext` starts a track exactly if one of the lap plays, and then
it starts the first of these.  If it starts none, it has tried all tracks of the lap and leaves
the current one alone.  The lap consists of tracks of the queue.  It has them all, unless the
random loop begins with a count that is not zero and the lap has a track twice. -/
theorem playNext_started_iff (hfree : c.IsFree) (hw : o.Answers w) :
    ∃ run, c.run w .playNext = some run ∧
      (run.answer = .outcome (.ok .started) ↔ ∃ track ∈ c.lap, (o.plays? track).isSome) ∧
      (run.answer = .outcome (.ok .started) →
        ∃ before track after r paused serial, c.lap = before ++ track :: after ∧
          (∀ other ∈ before, o.plays? other = none) ∧ o.plays? track = some r ∧
          run.controller.state.record =
            some ⟨r.track, r.streamUrl, paused, before.length, serial⟩) ∧
      (run.answer ≠ .outcome (.ok .started) →
        (run.answer = .outcome (.ok .exhausted) ∨ run.answer = .outcome (.ok .queueEmpty)) ∧
          run.controller.state.record = c.state.record ∧
          ∀ track ∈ c.lap, o.Tried track run.events) ∧
      c.lap ⊆ c.state.queue.items ∧
      (c.state.mode.mode ≠ .randomLoop ∨ c.state.mode.playCount = 0 →
        c.lap = c.state.queue.items) ∧
      (c.state.queue.items.Nodup → (c.state.queue.items ⊆ c.lap ↔ c.lap.Nodup)) := by
  let opened := (c.openCascade none).1
  let cascade := (c.openCascade none).2
  have hended : cascade.ended = none := rfl
  let search : Search := ⟨cascade, Nat.max c.state.queue.length 1, 0, .start c.reportLimit⟩
  have hopened : opened.IsFree := hfree
  have hbegin : GetsTo w 0 1 ⟨c, [], .begin .playNext⟩ ⟨opened, [], .measure cascade⟩ :=
    getsTo_of_locked w 0 hfree [] rfl
  have hmeasure : GetsTo w 0 1 ⟨opened, [], .measure cascade⟩
      ⟨opened, (opened.nextAttempt search).2, (opened.nextAttempt search).1⟩ :=
    getsTo_of_locked w 0 hopened [] rfl
  have hfirst := hbegin.trans hmeasure
  have hsearched : Searched o w 0 (8 * Nat.max c.state.queue.length 1 + 1) opened
      (opened.nextAttempt search).2 search (opened.upcoming (Nat.max c.state.queue.length 1)) :=
    searched hw 0 _ hopened rfl hended (Nat.zero_add _) _
  have hlap : opened.upcoming (Nat.max c.state.queue.length 1) = c.lap := upcoming_budget opened
  rw [hlap] at hsearched
  have hbound : 1 + 1 + (8 * Nat.max c.state.queue.length 1 + 1) + 2 ≤
      c.stepBound .playNext := by
    have hmax : Nat.max c.state.queue.length 1 ≤ c.state.queue.length + 1 :=
      Nat.max_le.mpr ⟨by omega, by omega⟩
    simp only [stepBound]
    omega
  have hcovers : c.lap ⊆ c.state.queue.items ∧
      (c.state.mode.mode ≠ .randomLoop ∨ c.state.mode.playCount = 0 →
        c.lap = c.state.queue.items) ∧
      (c.state.queue.items.Nodup → (c.state.queue.items ⊆ c.lap ↔ c.lap.Nodup)) :=
    ⟨lap_subset _ _ _, lap_eq_self, subset_lap_iff⟩
  cases hsearched with
  | @plays d told before after track r htracks hbefore hplays hdfree hrecord hgets =>
    obtain ⟨d', told', hdrecord, hfinish⟩ := getsTo_finished w 0 hdfree hended .started
      ((opened.nextAttempt search).2 ++ told)
    have hfinal : finalOutcome (d.state.closeCascade cascade) .started = .started := by
      simp [finalOutcome]
    rw [hfinal] at hfinish
    have hrun := runFor_eq_of_getsTo ((hfirst.trans hgets).trans hfinish) hbound
    obtain ⟨paused, serial, hrecord⟩ := hrecord
    have hmem : track ∈ c.lap := by simp [htracks]
    refine ⟨_, hrun, iff_of_true rfl ⟨track, hmem, by simp [hplays]⟩, ?_, ?_, hcovers⟩
    · intro _
      refine ⟨before, track, after, r, paused, serial, htracks, hbefore, hplays, ?_⟩
      rw [hdrecord, hrecord, Nat.zero_add]
    · intro hne
      exact absurd rfl hne
  | @fails d told outcome houtcome htracks hdfree hrecord hgets =>
    obtain ⟨d', told', hdrecord, hfinish⟩ := getsTo_finished w 0 hdfree hended outcome
      ((opened.nextAttempt search).2 ++ told)
    have hfinal : finalOutcome (d.state.closeCascade cascade) outcome = .exhausted ∨
        finalOutcome (d.state.closeCascade cascade) outcome = .queueEmpty := by
      unfold finalOutcome
      split
      · exact .inr rfl
      · exact houtcome
    have hrun := runFor_eq_of_getsTo ((hfirst.trans hgets).trans hfinish) hbound
    have hnot : Answer.outcome (.ok (finalOutcome (d.state.closeCascade cascade) outcome)) ≠
        .outcome (.ok .started) := by
      rcases hfinal with hfinal | hfinal <;> rw [hfinal] <;> nofun
    refine ⟨_, hrun, iff_of_false hnot ?_, fun h => absurd h hnot, fun _ => ?_, hcovers⟩
    · rintro ⟨track, hmem, hplays⟩
      rw [(htracks track hmem).1] at hplays
      cases hplays
    · refine ⟨?_, hdrecord.trans hrecord, ?_⟩
      · rcases hfinal with hfinal | hfinal
        · exact .inl (by rw [hfinal])
        · exact .inr (by rw [hfinal])
      · intro track hmem
        refine (htracks track hmem).2.mono ?_
        intro event hevent
        simp [hevent]

/-- In the random loop a count is left from an earlier lap, and the first of two tracks does not
play.  It is tried twice, and the one that would play is left out. -/
theorem playNext_started_iff_of_playCount :
    let o : Outside := ⟨fun track => .ok (some ⟨track, "found"⟩),
      fun source => if source.url = "gone" then .error .emptyQueue else .ok ()⟩
    let w : Collaborators := ⟨fun _ track => o.resolver track, fun events =>
      match events.getLast? with
      | some (.start source _ _) => o.player source
      | _ => .ok ()⟩
    let c := System.blank.controller.update fun s =>
      { s with queue := ⟨[.direct "gone", .direct "here"], []⟩, mode := ⟨.randomLoop, 1⟩ }
    c.IsFree ∧ o.Answers w ∧ c.lap = [.direct "gone", .direct "gone"] ∧
      Track.direct "here" ∈ c.state.queue.items ∧ (o.plays? (.direct "here")).isSome ∧
      ∃ run, c.run w .playNext = some run ∧
        (run.answer = .outcome (.ok .exhausted) ∨ run.answer = .outcome (.ok .queueEmpty)) := by
  intro o w c
  have hfree : c.IsFree := ⟨rfl, rfl⟩
  have hw : o.Answers w := ⟨fun _ _ => rfl, fun _ _ _ _ => by simp [w]⟩
  have hlap : c.lap = [.direct "gone", .direct "gone"] := by decide +kernel
  have hgone : o.plays? (.direct "gone") = none := by decide +kernel
  obtain ⟨run, hrun, hstarted, -, hfails, -⟩ := playNext_started_iff hfree hw
  have hnot : run.answer ≠ .outcome (.ok .started) := by
    intro hanswer
    obtain ⟨track, hmem, hplays⟩ := hstarted.mp hanswer
    obtain rfl : track = .direct "gone" := by simpa [hlap] using hmem
    rw [hgone] at hplays
    cases hplays
  exact ⟨hfree, hw, hlap, by decide +kernel, by decide +kernel, run, hrun, (hfails hnot).1⟩

end Controller

end Jukebox
