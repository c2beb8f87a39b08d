import Mathlib.Data.List.Perm.Subperm
import Mathlib.Data.List.Rotate
import Jukebox.Queue.Basic

/-!
# The tracks of a lap

A cascade makes as many attempts as the queue has tracks when it begins.  Outside the random
loop these are the tracks of the queue in their order.  In the random loop the queue is shuffled
as soon as the count of the lap reaches its length, and a count that is left from earlier tracks
brings this about in the middle of the attempts (`upcoming_length`).  Then tracks that were
already tried may come again, and as many others are left out (`subset_lap_iff`).
-/

namespace Jukebox

/-- The next tracks that are taken from a queue, so many if there are enough. -/
def upcoming : Nat → List Track → ModeState → RandomWords → List Track
  | 0, _, _, _ => []
  | n + 1, items, state, words =>
    match advance? items state words with
    | none => []
    | some a => a.track :: upcoming n a.queue { state with playCount := a.playCount } a.words

/-- How many tracks are taken before the random loop shuffles the queue again. -/
def beforeShuffle (items : List Track) (playCount : Nat) : Nat :=
  max 1 (items.length - playCount)

/-- The order of the queue when the random loop shuffles it again. -/
def reshuffled (items : List Track) (playCount : Nat) (words : RandomWords) : List Track :=
  (shuffle (items.rotate (beforeShuffle items playCount)) words).1

/-- The tracks that are taken from a queue in as many attempts as it is long. -/
def lap (items : List Track) (state : ModeState) (words : RandomWords) : List Track :=
  if state.mode = .randomLoop then
    items.take (beforeShuffle items state.playCount) ++
      (reshuffled items state.playCount words).take
        (items.length - beforeShuffle items state.playCount)
  else items

variable {items rest : List Track} {track : Track} {state : ModeState} {words : RandomWords}

/-! ## One track after the other -/

/-- The track that is taken goes back to the end in a loop mode. -/
theorem advance?_cons (h : state.mode = .randomLoop → state.playCount + 1 < rest.length + 1) :
    advance? (track :: rest) state words =
      some ⟨track, if state.mode.isLoop then rest ++ [track] else rest,
        if state.mode.isLoop then state.playCount + 1 else 1, false, words⟩ := by
  have hno : ¬(state.mode = .randomLoop ∧
      (if state.mode.isLoop then rest ++ [track] else rest).length ≤
        if state.mode.isLoop then state.playCount + 1 else 1) := by
    rintro ⟨hmode, hle⟩
    have hlt := h hmode
    rw [hmode] at hle
    simp only [PlayMode.isLoop, if_true, List.length_append, List.length_singleton] at hle
    omega
  simp only [advance?, if_neg hno]

/-- The random loop shuffles the queue when the count has reached its length. -/
theorem advance?_cons_of_le (hmode : state.mode = .randomLoop)
    (h : rest.length ≤ state.playCount) :
    advance? (track :: rest) state words =
      some ⟨track, (shuffle (rest ++ [track]) words).1, 1, true,
        (shuffle (rest ++ [track]) words).2⟩ := by
  have hle : (rest ++ [track]).length ≤ state.playCount + 1 := by
    rw [List.length_append, List.length_singleton]
    omega
  simp only [advance?, hmode, PlayMode.isLoop, if_true, hle, and_self]

theorem exists_advance?_cons (track : Track) (rest : List Track) (state : ModeState)
    (words : RandomWords) :
    ∃ a, advance? (track :: rest) state words = some a ∧ a.track = track := by
  by_cases hshuffles : state.mode = .randomLoop ∧ rest.length ≤ state.playCount
  · exact ⟨_, advance?_cons_of_le hshuffles.1 hshuffles.2, rfl⟩
  · refine ⟨_, advance?_cons fun hmode => ?_, rfl⟩
    have hlt : ¬rest.length ≤ state.playCount := fun hle => hshuffles ⟨hmode, hle⟩
    omega

/-- As long as the queue is not shuffled its tracks are taken in their order. -/
theorem upcoming_eq_take {n : Nat} (hn : n ≤ items.length)
    (h : state.mode = .randomLoop → n ≤ 1 ∨ state.playCount + n ≤ items.length) :
    upcoming n items state words = items.take n := by
  induction n generalizing items state with
  | zero => rfl
  | succ n ih =>
    obtain ⟨track, rest, rfl⟩ := List.exists_cons_of_length_pos (by omega : 0 < items.length)
    rw [List.length_cons] at hn h
    by_cases hlast : n = 0
    · obtain ⟨a, hadvance, htrack⟩ := exists_advance?_cons track rest state words
      subst hlast
      simp [upcoming, hadvance, htrack]
    · have hcount : state.mode = .randomLoop → state.playCount + 1 < rest.length + 1 := by
        intro hmode
        rcases h hmode with h | h <;> omega
      have hlength : n ≤ (if state.mode.isLoop then rest ++ [track] else rest).length := by
        split
        · rw [List.length_append]
          omega
        · omega
      have hrest : (if state.mode.isLoop then rest ++ [track] else rest).take n = rest.take n := by
        split
        · exact List.take_append_of_le_length (by omega)
        · rfl
      simp only [upcoming, advance?_cons hcount, List.take_succ_cons]
      rw [ih hlength, hrest]
      intro hmode
      have hmode' : state.mode = .randomLoop := hmode
      have hcount' := h hmode'
      simp only [hmode', PlayMode.isLoop, if_true, List.length_append, List.length_singleton]
      omega

/-! ## Across the shuffling -/

theorem length_shuffle (items : List Track) (words : RandomWords) :
    (shuffle items words).1.length = items.length :=
  (shuffle_perm items words).length_eq

/-- Where the count has come to the length already, the first track is followed by those that
come first in the new order. -/
theorem upcoming_succ_of_le (hmode : state.mode = .randomLoop)
    (h : rest.length ≤ state.playCount) {n : Nat} (hn : n ≤ rest.length) :
    upcoming (n + 1) (track :: rest) state words =
      track :: (shuffle (rest ++ [track]) words).1.take n := by
  have hlength : (shuffle (rest ++ [track]) words).1.length = rest.length + 1 := by
    rw [length_shuffle, List.length_append, List.length_singleton]
  have htake : upcoming n (shuffle (rest ++ [track]) words).1 { state with playCount := 1 }
      (shuffle (rest ++ [track]) words).2 = (shuffle (rest ++ [track]) words).1.take n := by
    refine upcoming_eq_take (by omega) fun _ => .inr ?_
    dsimp only
    omega
  simp only [upcoming, advance?_cons_of_le hmode h]
  rw [htake]

/-- The random loop takes the tracks in their order until it shuffles the queue, and then those
that come first in the new order. -/
theorem upcoming_add_beforeShuffle (hmode : state.mode = .randomLoop) (hitems : items ≠ [])
    {n : Nat} (hn : n + beforeShuffle items state.playCount ≤ items.length) :
    upcoming (n + beforeShuffle items state.playCount) items state words =
      items.take (beforeShuffle items state.playCount) ++
        (reshuffled items state.playCount words).take n := by
  -- With every track the queue is rotated, and the count comes nearer to its length.
  generalize hleft : items.length - state.playCount = left
  induction left using Nat.strong_induction_on generalizing items state with
  | _ left ih =>
    obtain ⟨track, rest, rfl⟩ := List.exists_cons_of_ne_nil hitems
    rw [List.length_cons] at hn hleft
    by_cases hshuffles : rest.length ≤ state.playCount
    · have hone : beforeShuffle (track :: rest) state.playCount = 1 := by
        rw [beforeShuffle, List.length_cons]
        omega
      rw [hone] at hn ⊢
      rw [upcoming_succ_of_le hmode hshuffles (by omega), reshuffled, hone,
        List.rotate_cons_succ, List.rotate_zero]
      rfl
    · obtain ⟨later, rfl⟩ : ∃ later, left = later + 1 := ⟨left - 1, by omega⟩
      have htried : beforeShuffle (track :: rest) state.playCount = later + 1 := by
        rw [beforeShuffle, List.length_cons]
        omega
      have hshift : beforeShuffle (rest ++ [track]) (state.playCount + 1) = later := by
        rw [beforeShuffle, List.length_append, List.length_singleton]
        omega
      have hrotate : reshuffled (rest ++ [track]) (state.playCount + 1) words =
          reshuffled (track :: rest) state.playCount words := by
        simp only [reshuffled, hshift, htried, List.rotate_cons_succ]
      have hlength : (rest ++ [track]).length = rest.length + 1 := by
        rw [List.length_append, List.length_singleton]
      have hrest : upcoming (n + later) (rest ++ [track])
          { state with playCount := state.playCount + 1 } words =
          (rest ++ [track]).take later ++ (reshuffled (track :: rest) state.playCount words).take
            n := by
        have hlater := @ih later (by omega) (rest ++ [track])
          { state with playCount := state.playCount + 1 } hmode (by simp)
        rw [hshift, hrotate, hlength] at hlater
        exact hlater (by omega) (by dsimp only; omega)
      have htake : (rest ++ [track]).take later = rest.take later :=
        List.take_append_of_le_length (by omega)
      have hcount : state.mode = .randomLoop → state.playCount + 1 < rest.length + 1 :=
        fun _ => by omega
      have hloop : state.mode.isLoop = true := by
        rw [hmode]
        rfl
      rw [htried, ← Nat.add_assoc, List.take_succ_cons]
      simp only [upcoming, advance?_cons hcount, hloop, if_true]
      rw [hrest, htake]
      rfl

/-! ## As many tracks as there are -/

/-- As many tracks as the queue is long are the lap. -/
theorem upcoming_length (items : List Track) (state : ModeState) (words : RandomWords) :
    upcoming items.length items state words = lap items state words := by
  unfold lap
  split
  · next hmode =>
    cases items with
    | nil => simp [upcoming, reshuffled, shuffle, shuffleFrom]
    | cons track rest =>
      have hle : beforeShuffle (track :: rest) state.playCount ≤ (track :: rest).length := by
        rw [beforeShuffle, List.length_cons]
        omega
      have hadd := @upcoming_add_beforeShuffle (track :: rest) state words hmode (by simp)
        ((track :: rest).length - beforeShuffle (track :: rest) state.playCount)
      rw [Nat.sub_add_cancel hle] at hadd
      exact hadd (Nat.le_refl _)
  · next hmode =>
    rw [upcoming_eq_take (Nat.le_refl _) (fun h => absurd h hmode), List.take_length]

/-- A lap that begins with its count at zero has all tracks of the queue, and so has every lap
outside the random loop. -/
theorem lap_eq_self (h : state.mode ≠ .randomLoop ∨ state.playCount = 0) :
    lap items state words = items := by
  unfold lap
  split
  · next hmode =>
    have hcount : state.playCount = 0 := h.resolve_left (not_not_intro hmode)
    have htried : items.length ≤ beforeShuffle items state.playCount := by
      rw [beforeShuffle, hcount]
      omega
    rw [List.take_of_length_le htried, Nat.sub_eq_zero_of_le htried, List.take_zero,
      List.append_nil]
  · rfl

theorem lap_subset (items : List Track) (state : ModeState) (words : RandomWords) :
    lap items state words ⊆ items := by
  intro track htrack
  unfold lap at htrack
  split at htrack
  · rcases List.mem_append.mp htrack with htrack | htrack
    · exact List.mem_of_mem_take htrack
    · have hmem := (shuffle_perm _ _).mem_iff.mp (List.mem_of_mem_take htrack)
      exact List.mem_rotate.mp hmem
  · exact htrack

theorem length_lap (items : List Track) (state : ModeState) (words : RandomWords) :
    (lap items state words).length = items.length := by
  unfold lap
  split
  · simp only [List.length_append, List.length_take, reshuffled, length_shuffle,
      List.length_rotate]
    omega
  · rfl

/-- Of tracks that are all different a lap has every one exactly if it tries none twice. -/
theorem subset_lap_iff (h : items.Nodup) :
    items ⊆ lap items state words ↔ (lap items state words).Nodup := by
  have hlength := length_lap items state words
  constructor
  · intro hsub
    have hperm := (List.subperm_of_subset h hsub).perm_of_length_le hlength.le
    exact hperm.nodup_iff.mp h
  · intro hnodup
    have hsub := List.subperm_of_subset hnodup (lap_subset items state words)
    exact (hsub.perm_of_length_le hlength.ge).symm.subset

end Jukebox
