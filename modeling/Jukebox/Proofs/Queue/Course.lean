import Mathlib.Data.List.Rotate
import Jukebox.Proofs.Queue.Emptiness
import Jukebox.Proofs.Queue.Lap
import Jukebox.Queue.Basic

/-!
# Call after call

The next track is asked for again and again, and nothing else is done to the queue.  Outside the
random loop the tracks come in their order.  Where a track that was taken does not go back, the
queue gets shorter until it is empty, and then every call fails and changes nothing; in a loop the
queue turns, and its length only says after how many calls a track comes again
(`Course.plays_in_order`).
-/

namespace Jukebox

/-- A call that fails took nothing out of the queue, so everything is as it was. -/
theorem Queue.next_eq (q : Queue) (state : ModeState) (words : RandomWords) :
    q.next state words =
      match q.next? state words with
      | some taken => (.ok taken.track, taken.queue, taken.state, taken.words)
      | none => (.error .emptyQueue, q, state, words) := by
  cases h : advance? q.items state words with
  | some a => simp [next, next?, advance, h]
  | none =>
    have hnil : q.items = [] := by
      rw [← Queue.next?_eq_none, next?, h]
      rfl
    have hsame : { q with items := [] } = q := by rw [← hnil]
    simp [next, next?, advance, h, hsame]

/-- A queue with the mode and the random words that decide how it is played. -/
structure Course where
  queue : Queue
  state : ModeState
  words : RandomWords
deriving DecidableEq

namespace Course

/-- The next track is asked for. -/
def next (s : Course) : Except Error Track × Course :=
  let (result, queue, state, words) := s.queue.next s.state s.words
  (result, ⟨queue, state, words⟩)

/-- So many calls later. -/
def after (s : Course) : Nat → Course
  | 0 => s
  | k + 1 => (s.after k).next.2

variable {s : Course} {track : Track} {rest : List Track} {a : Advanced} {k : Nat}

/-! ## One call -/

theorem next_of_advance? (h : advance? s.queue.items s.state s.words = some a) :
    s.next = (.ok a.track, ⟨{ s.queue with items := a.queue },
      { s.state with playCount := a.playCount }, a.words⟩) := by
  simp [next, Queue.next_eq, Queue.next?, h]

/-- A call on an empty queue fails. -/
theorem next_of_nil (h : s.queue.items = []) : s.next = (.error .emptyQueue, s) := by
  simp [next, Queue.next_eq, Queue.next?, advance?, h]

/-- Outside a loop the track that is taken leaves the queue. -/
theorem next_of_not_isLoop (hmode : s.state.mode.isLoop = false)
    (hitems : s.queue.items = track :: rest) :
    s.next = (.ok track,
      ⟨{ s.queue with items := rest }, { s.state with playCount := 1 }, s.words⟩) := by
  have hrandom : s.state.mode = .randomLoop → s.state.playCount + 1 < rest.length + 1 := by
    intro h
    rw [h] at hmode
    cases hmode
  have hadvance := @advance?_cons rest track s.state s.words hrandom
  rw [← hitems] at hadvance
  rw [next_of_advance? hadvance]
  simp [hmode]

/-- In the sequential loop the track that is taken goes to the end of the queue. -/
theorem next_of_sequentialLoop (hmode : s.state.mode = .sequentialLoop)
    (hitems : s.queue.items = track :: rest) :
    s.next = (.ok track, ⟨{ s.queue with items := s.queue.items.rotate 1 },
      { s.state with playCount := s.state.playCount + 1 }, s.words⟩) := by
  have hrandom : s.state.mode = .randomLoop → s.state.playCount + 1 < rest.length + 1 := by
    intro h
    rw [h] at hmode
    cases hmode
  have hadvance := @advance?_cons rest track s.state s.words hrandom
  rw [← hitems] at hadvance
  rw [next_of_advance? hadvance]
  simp [hmode, hitems, PlayMode.isLoop]

/-! ## Many calls -/

/-- What is left once so many tracks were taken that do not go back. -/
def shortened (s : Course) (k : Nat) : Course :=
  ⟨{ s.queue with items := s.queue.items.drop k },
    { s.state with playCount := if k = 0 then s.state.playCount else 1 }, s.words⟩

/-- The queue turned by so many tracks, and each of them counted. -/
def turned (s : Course) (k : Nat) : Course :=
  ⟨{ s.queue with items := s.queue.items.rotate k },
    { s.state with playCount := s.state.playCount + k }, s.words⟩

theorem next_shortened (hmode : s.state.mode.isLoop = false) (hk : k < s.queue.items.length) :
    (s.shortened k).next = (.ok s.queue.items[k], s.shortened (k + 1)) := by
  have hitems : (s.shortened k).queue.items = s.queue.items[k] :: s.queue.items.drop (k + 1) :=
    List.drop_eq_getElem_cons hk
  have hloop : (s.shortened k).state.mode.isLoop = false := hmode
  rw [next_of_not_isLoop hloop hitems]
  simp [shortened]

theorem next_turned (hmode : s.state.mode = .sequentialLoop) (hitems : s.queue.items ≠ [])
    (k : Nat) :
    ∃ track, s.queue.items[k % s.queue.items.length]? = some track ∧
      (s.turned k).next = (.ok track, s.turned (k + 1)) := by
  have hne : s.queue.items.rotate k ≠ [] := fun h => hitems (List.rotate_eq_nil_iff.mp h)
  obtain ⟨track, rest, hcons⟩ := List.exists_cons_of_ne_nil hne
  have hhead := List.getElem?_rotate (n := k) (List.length_pos_iff.mpr hitems)
  rw [hcons, Nat.zero_add] at hhead
  have hloop : (s.turned k).state.mode = .sequentialLoop := hmode
  refine ⟨track, hhead.symm, ?_⟩
  rw [next_of_sequentialLoop hloop hcons]
  simp [turned, List.rotate_rotate, Nat.add_assoc]

theorem after_of_not_isLoop (hmode : s.state.mode.isLoop = false)
    (hk : k ≤ s.queue.items.length) : s.after k = s.shortened k := by
  induction k with
  | zero => rfl
  | succ k ih => rw [after, ih (Nat.le_of_lt hk), next_shortened hmode hk]

theorem after_of_sequentialLoop (hmode : s.state.mode = .sequentialLoop)
    (hitems : s.queue.items ≠ []) (k : Nat) : s.after k = s.turned k := by
  induction k with
  | zero => simp [after, turned]
  | succ k ih =>
    obtain ⟨track, -, hnext⟩ := next_turned hmode hitems k
    rw [after, ih, hnext]

/-- Outside a loop as many calls as there are tracks return them in their order, each leaves the
rest, and the next call fails.  In the sequential loop the calls go round: each turns the queue by
one track and is counted. -/
theorem plays_in_order (s : Course) (k : Nat) :
    (s.state.mode = .sequential ∨ s.state.mode = .random → k ≤ s.queue.length →
      (List.range k).map (fun i => (s.after i).next.1) = (s.queue.items.take k).map .ok ∧
        s.after k = ⟨{ s.queue with items := s.queue.items.drop k },
          { s.state with playCount := if k = 0 then s.state.playCount else 1 }, s.words⟩ ∧
        (s.after s.queue.length).next = (.error .emptyQueue, s.after s.queue.length)) ∧
    (s.state.mode = .sequentialLoop → 1 ≤ s.queue.length →
      (∀ i, ∃ track, s.queue.items[i % s.queue.length]? = some track ∧
        (s.after i).next.1 = .ok track) ∧
        s.after k = ⟨{ s.queue with items := s.queue.items.rotate (k % s.queue.length) },
          { s.state with playCount := s.state.playCount + k }, s.words⟩) := by
  constructor
  · intro hmodes hk
    have hmode : s.state.mode.isLoop = false := by
      rcases hmodes with hmode | hmode <;> rw [hmode] <;> rfl
    have hsize : k ≤ s.queue.items.length := hk
    refine ⟨?_, after_of_not_isLoop hmode hsize, ?_⟩
    · apply List.ext_getElem
      · rw [List.length_map, List.length_range, List.length_map, List.length_take,
          Nat.min_eq_left hsize]
      · intro i hi hi'
        rw [List.length_map, List.length_range] at hi
        have hlt : i < s.queue.items.length := Nat.lt_of_lt_of_le hi hsize
        simp [after_of_not_isLoop hmode (Nat.le_of_lt hlt), next_shortened hmode hlt]
    · apply next_of_nil
      rw [Queue.length, after_of_not_isLoop hmode (Nat.le_refl _)]
      exact List.drop_length
  · intro hmode hsize
    have hitems : s.queue.items ≠ [] := List.ne_nil_of_length_pos hsize
    constructor
    · intro i
      obtain ⟨track, htrack, hnext⟩ := next_turned hmode hitems i
      refine ⟨track, htrack, ?_⟩
      rw [after_of_sequentialLoop hmode hitems, hnext]
    · rw [after_of_sequentialLoop hmode hitems, Queue.length, List.rotate_mod]
      rfl

/-- Two of three tracks are taken in a random order; seven times a track is taken in a loop. -/
theorem plays_in_order_of_three :
    let q : Queue := ⟨[.direct "x", .direct "y", .direct "z"], []⟩
    let s : Course := ⟨q, ⟨.random, 5⟩, []⟩
    let t : Course := ⟨q, ⟨.sequentialLoop, 5⟩, []⟩
    s.state.mode = .random ∧ 2 ≤ s.queue.length ∧ t.state.mode = .sequentialLoop ∧
      1 ≤ t.queue.length ∧
      (List.range 2).map (fun i => (s.after i).next.1) =
        [.ok (.direct "x"), .ok (.direct "y")] ∧
      s.after 2 = ⟨⟨[.direct "z"], []⟩, ⟨.random, 1⟩, []⟩ ∧
      (s.after 3).next = (.error .emptyQueue, s.after 3) ∧
      (t.after 7).next.1 = .ok (.direct "y") ∧
      t.after 7 = ⟨⟨[.direct "y", .direct "z", .direct "x"], []⟩, ⟨.sequentialLoop, 12⟩, []⟩ := by
  intro q s t
  have hrandom : s.state.mode = .random := rfl
  have hloop : t.state.mode = .sequentialLoop := rfl
  have hs : 2 ≤ s.queue.length := by decide
  have ht : 1 ≤ t.queue.length := by decide
  obtain ⟨hcalls, hrest, hlast⟩ := (plays_in_order s 2).1 (.inr hrandom) hs
  have hplace : 7 % t.queue.length = 1 := by decide
  obtain ⟨hturns, hturned⟩ := (plays_in_order t 7).2 hloop ht
  obtain ⟨track, htrack, hseventh⟩ := hturns 7
  rw [hplace] at hturned htrack
  obtain rfl : Track.direct "y" = track := Option.some.inj htrack
  exact ⟨hrandom, hs, hloop, ht, hcalls, hrest, hlast, hseventh, hturned⟩

end Course

end Jukebox
