import Jukebox.Proofs.Playback.Attempts
import Jukebox.Proofs.Presence

/-!
# Events that change nothing about the listeners

With automatic pause the listeners decide anew on every event, whether or not it has changed
them, and nothing is kept of a pause by hand.  So an event after which the bot is in the same
channel with the same listeners does nothing where the record agrees with them, and otherwise lays
their decision over it (`Controller.unchanged_listeners_decide`).
-/

namespace Jukebox

/-- The listeners decide on the event: not without automatic pause, and not where the bot itself
is said to come or go. -/
def PresenceEvent.decides (event : PresenceEvent) (p : Presence) : Bool :=
  p.autoPause && match event with
    | .entered client _ | .left client _ => client != p.self
    | .moved _ _ => true

/-- The same channel with the same listeners, in whatever order they are counted. -/
structure Presence.Alike (p q : Presence) : Prop where
  channel : q.ownChannel = p.ownChannel
  members : ∀ client, client ∈ q.members ↔ client ∈ p.members

theorem Presence.Alike.isEmpty_eq {p q : Presence} (h : p.Alike q) :
    q.members.isEmpty = p.members.isEmpty := by
  rw [Bool.eq_iff_iff, List.isEmpty_iff, List.isEmpty_iff, List.eq_nil_iff_forall_not_mem,
    List.eq_nil_iff_forall_not_mem]
  exact forall_congr' fun client => not_congr (h.members client)

theorem Presence.decision_apply (p : Presence) (event : PresenceEvent) (roster : Roster) :
    (p.apply event roster).2 =
      if event.decides p then some (p.apply event roster).1.members.isEmpty else none := by
  have hdecision : ∀ q : Presence, q.autoPause = p.autoPause →
      q.decision = if p.autoPause then some q.members.isEmpty else none := by
    intro q hq
    rw [decision, hq]
  have hframe := (p.apply_frame event roster).2
  cases event with
  | moved client target =>
    have hdecides : (PresenceEvent.moved client target).decides p = p.autoPause :=
      Bool.and_true _
    rw [hdecides]
    exact hdecision _ hframe
  | entered client channel | left client channel =>
    by_cases hclient : client = p.self
    · simp [apply, PresenceEvent.decides, hclient]
    · have hother : (client != p.self) = true := bne_iff_ne.mpr hclient
      simp only [apply, if_neg hclient] at hframe ⊢
      simp only [PresenceEvent.decides, hother, Bool.and_true]
      exact hdecision _ hframe

namespace Controller

variable {c : Controller} {event : PresenceEvent} {roster : Roster} {w : Collaborators}

/-- The listeners decide on the event, and the record is at odds with them. -/
def Overruled (c : Controller) (event : PresenceEvent) (members : List Nat) : Prop :=
  event.decides c.state.presence = true ∧
    ∃ r, c.state.record = some r ∧ r.paused ≠ members.isEmpty

/-- The controller once the event is taken in. -/
def noticing (c : Controller) (event : PresenceEvent) (roster : Roster) : Controller :=
  c.update fun s => { s with presence := (s.presence.apply event roster).1 }

/-- The controller once the player was asked to rest or to go on. -/
def obeyed (c : Controller) (paused : Bool) : Except Error Unit → Controller
  | .ok () => c.update (·.setPaused paused)
  | .error _ => c

theorem locked_presence_of_not_overruled {op : Nat}
    (h : ¬c.Overruled event (c.state.presence.apply event roster).1.members) :
    c.locked op (.begin (.presence event roster)) =
      (c.noticing event roster).answer (.checked (.ok ())) := by
  have hdecision := c.state.presence.decision_apply event roster
  simp only [locked, begin, hdecision]
  by_cases hdecides : event.decides c.state.presence = true
  · rw [if_pos hdecides]
    cases hrecord : c.state.record with
    | none => simp [update, hrecord, noticing]
    | some r =>
      have hagrees : r.paused = (c.state.presence.apply event roster).1.members.isEmpty :=
        Decidable.not_not.mp fun hne => h ⟨hdecides, r, hrecord, hne⟩
      simp [update, hrecord, hagrees, noticing]
  · rw [if_neg hdecides]
    rfl

theorem locked_presence_of_overruled {op : Nat}
    (h : c.Overruled event (c.state.presence.apply event roster).1.members) :
    c.locked op (.begin (.presence event roster)) =
      (c.noticing event roster).askToPause op
        (c.state.presence.apply event roster).1.members.isEmpty
        (.adjusting (c.state.presence.apply event roster).1.members.isEmpty) := by
  obtain ⟨hdecides, r, hrecord, hne⟩ := h
  have hdecision := c.state.presence.decision_apply event roster
  rw [if_pos hdecides] at hdecision
  simp [locked, begin, hdecision, update, hrecord, hne, noticing]

theorem run_presence_of_not_overruled (hlock : c.lockedBy = none) (w : Collaborators)
    (h : ¬c.Overruled event (c.state.presence.apply event roster).1.members) :
    c.run w (.presence event roster) =
      some ⟨c.noticing event roster, [], .checked (.ok ())⟩ := by
  have hbegin : GetsTo w 0 1 ⟨c, [], .begin (.presence event roster)⟩
      ⟨c.noticing event roster, [], .finished (.checked (.ok ()))⟩ := by
    refine getsTo_of_step? ?_
    simp [step?, Stage.need, Collaborators.signal, hlock, locked_presence_of_not_overruled h,
      answer]
  exact runFor_eq_of_getsTo hbegin (by simp only [stepBound]; omega)

theorem run_presence_of_overruled (hlock : c.lockedBy = none) (w : Collaborators)
    (h : c.Overruled event (c.state.presence.apply event roster).1.members) :
    let paused := (c.state.presence.apply event roster).1.members.isEmpty
    c.run w (.presence event roster) =
      some ⟨(c.noticing event roster).obeyed paused (w.play [.setPaused paused]),
        [.setPaused paused], .checked (w.play [.setPaused paused])⟩ := by
  intro paused
  let d := c.noticing event roster
  have hbegin : GetsTo w 0 1 ⟨c, [], .begin (.presence event roster)⟩
      ⟨{ d with lockedBy := some 0 }, [.setPaused paused], .adjusting paused⟩ := by
    refine getsTo_of_step? ?_
    simp [step?, Stage.need, Collaborators.signal, hlock, locked_presence_of_overruled h,
      askToPause, d, paused]
  have hreply : GetsTo w 0 1 ⟨{ d with lockedBy := some 0 }, [.setPaused paused], .adjusting paused⟩
      ⟨d.obeyed paused (w.play [.setPaused paused]), [.setPaused paused] ++ [],
        .finished (.checked (w.play [.setPaused paused]))⟩ := by
    refine getsTo_of_step? ?_
    have hunlocked : d.lockedBy = none := hlock
    cases hplay : w.play [.setPaused paused] <;>
      simp [step?, Stage.need, Collaborators.signal, hplay, played, obeyed, update, ← hunlocked]
  exact runFor_eq_of_getsTo (hbegin.trans hreply) (by simp only [stepBound]; omega)

/-- An event that changes neither the channel of the bot nor its listeners is no reason to leave
the record alone.  Nothing happens if the record agrees with the listeners, or if these decide
nothing on the event.  Otherwise, in a channel that is known, the player is asked to do what they
decide, and the record follows if the player does; so nothing is left of a pause by hand. -/
theorem unchanged_listeners_decide (hlock : c.lockedBy = none) (w : Collaborators)
    (h : c.state.presence.Alike (c.state.presence.apply event roster).1) :
    let members := c.state.presence.members
    let silent := members.isEmpty
    ∃ run, c.run w (.presence event roster) = some run ∧
      (¬c.Overruled event members →
        run.events = [] ∧ run.answer = .checked (.ok ()) ∧
          run.controller = c.noticing event roster ∧
          run.controller.state.record = c.state.record) ∧
      (c.Overruled event members → c.state.presence.ownChannel.isSome = true →
        run.events = [.setPaused silent] ∧
          run.answer = .checked (w.play [.setPaused silent]) ∧
          run.controller =
            (c.noticing event roster).obeyed silent (w.play [.setPaused silent]) ∧
          (w.play [.setPaused silent] = .ok () →
            run.controller.state.record = c.state.record.map fun r => { r with paused := silent }) ∧
          (∀ e, w.play [.setPaused silent] = .error e →
            run.controller.state.record = c.state.record)) := by
  intro members silent
  have hoverruled : c.Overruled event (c.state.presence.apply event roster).1.members ↔
      c.Overruled event members := by
    simp only [Overruled, h.isEmpty_eq, members]
  by_cases hover : c.Overruled event members
  · have hrun := run_presence_of_overruled hlock w (hoverruled.mpr hover)
    rw [h.isEmpty_eq] at hrun
    refine ⟨_, hrun, fun hnot => absurd hover hnot, fun _ _ => ⟨rfl, rfl, rfl, ?_, ?_⟩⟩
    · intro hplay
      simp only [silent, members] at hplay
      simp only [hplay, obeyed]
      rfl
    · intro e hplay
      simp only [silent, members] at hplay
      simp only [hplay, obeyed]
      rfl
  · have hrun := run_presence_of_not_overruled hlock w (mt hoverruled.mp hover)
    exact ⟨_, hrun, fun _ => ⟨rfl, rfl, rfl, rfl⟩, fun hyes => absurd hyes hover⟩

end Controller

namespace System

/-- Somebody listens, and the track is paused by hand. -/
def pausedByHand : List Move :=
  .arrive (.presence (.moved 0 5) [(0, 5), (10, 5)]) :: goes 0 1 ++
    .arrive (.enqueue (.direct "a")) :: goes 1 6 ++ .advance 1 (.played (.ok ())) :: goes 1 3 ++
    .arrive .togglePause :: goes 2 1 ++ [.advance 2 (.played (.ok ()))]

/-- Somebody else enters another channel, and the listener decides. -/
theorem unchanged_listeners_decide_of_stranger :
    let c := (blank.after pausedByHand).controller
    let event : PresenceEvent := .entered 11 6
    let w : Collaborators := ⟨fun _ _ => .ok none, fun _ => .ok ()⟩
    c.lockedBy = none ∧ c.state.presence.Alike (c.state.presence.apply event []).1 ∧
      c.Overruled event c.state.presence.members ∧
      c.state.presence.ownChannel.isSome = true ∧
      ∃ run, c.run w (.presence event []) = some run ∧ run.events = [.setPaused false] ∧
        run.controller.state.record =
          c.state.record.map fun r => { r with paused := false } := by
  intro c event w
  have hlock : c.lockedBy = none := by decide +kernel
  have hsame : (c.state.presence.apply event []).1 = c.state.presence := by decide +kernel
  have halike : c.state.presence.Alike (c.state.presence.apply event []).1 := by
    rw [hsame]
    exact ⟨rfl, fun _ => .rfl⟩
  have hlistens : c.state.presence.members.isEmpty = false := by decide +kernel
  have hpaused : c.state.record.map (·.paused) = some true := by decide +kernel
  obtain ⟨r, hrecord, hrests⟩ := Option.map_eq_some_iff.mp hpaused
  have hover : c.Overruled event c.state.presence.members :=
    ⟨by decide +kernel, r, hrecord, by rw [hrests, hlistens]; decide⟩
  have hknown : c.state.presence.ownChannel.isSome = true := by decide +kernel
  obtain ⟨run, hrun, -, hlays⟩ := Controller.unchanged_listeners_decide hlock w halike
  obtain ⟨hevents, -, -, hrecord', -⟩ := hlays hover hknown
  rw [hlistens] at hevents hrecord'
  exact ⟨hlock, halike, hover, hknown, run, hrun, hevents, hrecord' rfl⟩

/-- A pause by hand does not outlast such an event: somebody else enters another channel, and the
music goes on. -/
theorem pause_by_hand_lost :
    let c := (blank.after pausedByHand).controller
    let event : PresenceEvent := .entered 11 6
    let w : Collaborators := ⟨fun _ _ => .ok none, fun _ => .ok ()⟩
    blank.Run anyMove pausedByHand (blank.after pausedByHand) ∧
      (blank.after pausedByHand).Quiet ∧ c.state.presence.ownChannel = some 5 ∧
      c.state.presence.members = [10] ∧
      (c.state.presence.apply event []).1 = c.state.presence ∧
      c.state.record.map (·.paused) = some true ∧
      (c.run w (.presence event [])).map (fun run =>
        (run.events, run.controller.state.record.map (·.paused))) =
          some ([.setPaused false], some false) := by
  intro c event w
  have hrun : blank.Run anyMove pausedByHand (blank.after pausedByHand) :=
    run_after (by decide +kernel)
  have hquiet : (blank.after pausedByHand).inFlight = [] := by decide +kernel
  exact ⟨hrun, hquiet, by decide +kernel, by decide +kernel, by decide +kernel,
    by decide +kernel, by decide +kernel⟩

end System

end Jukebox
