import Jukebox.Queue.Basic

/-!
# When the queue is empty

Adding a track never leaves the queue empty, and of an empty queue only adding makes another.
-/

namespace Jukebox

namespace Queue

variable {q q' : Queue} {track : Track}

theorem add_items_ne_nil (q : Queue) (track : Track) (place : Option Nat) :
    (q.add track place).items ≠ [] := by
  intro h
  have hlength : (placed q.items track place).length = 0 := congrArg List.length h
  unfold placed at hlength
  cases place with
  | none => simp at hlength
  | some i =>
    dsimp only at hlength
    split at hlength
    · next hlt => simp [List.length_insertIdx, Nat.le_of_lt hlt] at hlength
    · simp at hlength

theorem addAll_items_ne_nil (h : q.items ≠ []) (tracks : List Track) :
    (q.addAll tracks).items ≠ [] := by
  induction tracks generalizing q with
  | nil => exact h
  | cons track tracks ih => exact ih (q.add_items_ne_nil track none)

theorem addAll_items_ne_nil_of_ne_nil {tracks : List Track} (h : tracks ≠ []) (q : Queue) :
    (q.addAll tracks).items ≠ [] := by
  cases tracks with
  | nil => exact absurd rfl h
  | cons track tracks => exact addAll_items_ne_nil (q.add_items_ne_nil track none) tracks

theorem refresh_items_eq_nil : (q.refresh track).items = [] ↔ q.items = [] := by
  have hgo : ∀ items : List Track, refresh.go track items = [] ↔ items = [] := by
    intro items
    cases items with
    | nil => simp [refresh.go]
    | cons item items =>
      simp only [refresh.go]
      split <;> simp
  exact hgo q.items

theorem next?_eq_none {state : ModeState} {words : RandomWords} :
    q.next? state words = none ↔ q.items = [] := by
  unfold next?
  rw [Option.map_eq_none_iff]
  cases q.items with
  | nil => simp [advance?]
  | cons track items =>
    simp only [advance?]
    split <;> split <;> simp

end Queue

end Jukebox
