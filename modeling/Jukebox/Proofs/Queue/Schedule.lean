import Jukebox.Proofs.Queue.Course

/-!
# When the random loop shuffles the queue

Each call of the random loop turns the queue by one track and counts it, and the call with which
the count comes to the length of the queue shuffles it besides and sets the count to one.  So the
count depends on nothing but the number of calls and of tracks (`lapCount`): from zero it takes as
many calls as there are tracks to the first shuffling, and from one it takes one call less to each
later one (`Course.reshuffle_schedule`).
-/

namespace Jukebox

/-- The count of the lap after `k` calls on a queue of `n` tracks. -/
def lapCount (n k : Nat) : Nat :=
  if k < n then k else if n = 1 then 1 else (k - n) % (n - 1) + 1

variable {n k : Nat}

/-! ## The count -/

theorem one_or_add_two (hn : 0 < n) : n = 1 ∨ ∃ b, n = b + 2 := by
  match n, hn with
  | 1, _ => exact .inl rfl
  | b + 2, _ => exact .inr ⟨b, rfl⟩

theorem lapCount_of_lt (h : k < n) : lapCount n k = k := if_pos h

theorem lapCount_add_two (b j : Nat) : lapCount (b + 2) (b + 2 + j) = j % (b + 1) + 1 := by
  have hpast : ¬b + 2 + j < b + 2 := by omega
  have hmore : b + 2 ≠ 1 := by omega
  rw [lapCount, if_neg hpast, if_neg hmore, Nat.add_sub_cancel_left]
  rfl

theorem succ_mod_add_one (b j : Nat) :
    (j + 1) % (b + 1) + 1 = if b + 2 ≤ j % (b + 1) + 1 + 1 then 1 else j % (b + 1) + 1 + 1 := by
  have hlt : j % (b + 1) < b + 1 := Nat.mod_lt j (Nat.succ_pos b)
  rw [Nat.add_mod_eq_ite]
  by_cases hone : b = 0
  · subst hone
    simp [Nat.mod_one]
  · have hmod : 1 % (b + 1) = 1 := Nat.mod_eq_of_lt (by omega)
    rw [hmod]
    split <;> split <;> omega

/-- A count that comes to the length begins again at one, and every other one grows. -/
theorem lapCount_succ (hn : 0 < n) (k : Nat) :
    lapCount n (k + 1) = if n ≤ lapCount n k + 1 then 1 else lapCount n k + 1 := by
  rcases one_or_add_two hn with rfl | ⟨b, rfl⟩
  · simp [lapCount]
  · rcases Nat.lt_or_ge k (b + 2) with hk | hk
    · rw [lapCount_of_lt hk]
      by_cases hlast : b + 2 ≤ k + 1
      · have hfull : k + 1 = b + 2 + 0 := by omega
        rw [if_pos hlast, hfull, lapCount_add_two, Nat.zero_mod]
      · rw [if_neg hlast, lapCount_of_lt (Nat.lt_of_not_le hlast)]
    · obtain ⟨j, rfl⟩ := Nat.exists_eq_add_of_le hk
      rw [Nat.add_assoc, lapCount_add_two, lapCount_add_two, succ_mod_add_one]

/-- The count comes to the length first when every track was taken, and from then on each time
when all tracks but one were. -/
theorem le_lapCount_iff (hn : 0 < n) (k : Nat) :
    n ≤ lapCount n k + 1 ↔ n = 1 ∨ 2 ≤ n ∧ n ≤ k + 1 ∧ n - 1 ∣ k + 1 - n := by
  rcases one_or_add_two hn with rfl | ⟨b, rfl⟩
  · simp
  · have hdrop : b + 2 - 1 = b + 1 := rfl
    rw [hdrop]
    rcases Nat.lt_or_ge k (b + 2) with hk | hk
    · rw [lapCount_of_lt hk]
      constructor
      · intro hle
        have hzero : k + 1 - (b + 2) = 0 := by omega
        rw [hzero]
        exact .inr ⟨Nat.le_add_left 2 b, hle, Nat.dvd_zero (b + 1)⟩
      · omega
    · obtain ⟨j, rfl⟩ := Nat.exists_eq_add_of_le hk
      have hpast : b + 2 + j + 1 - (b + 2) = j + 1 := by omega
      have hlt : j % (b + 1) < b + 1 := Nat.mod_lt j (Nat.succ_pos b)
      rw [lapCount_add_two, hpast, Nat.dvd_iff_mod_eq_zero, Nat.succ_mod_succ_eq_zero_iff]
      omega

theorem lapCount_succ_bounds (hn : 0 < n) (k : Nat) :
    1 ≤ lapCount n (k + 1) ∧ lapCount n (k + 1) ≤ max 1 (n - 1) := by
  rw [lapCount_succ hn]
  split <;> omega

namespace Course

variable {s : Course}

/-! ## The calls -/

/-- A call of the random loop on a queue that is not empty. -/
theorem next_of_randomLoop (hmode : s.state.mode = .randomLoop) (hitems : s.queue.items ≠ []) :
    ∃ a, advance s.queue.items s.state s.words = .ok a ∧
      s.next = (.ok a.track, ⟨{ s.queue with items := a.queue },
        { s.state with playCount := a.playCount }, a.words⟩) ∧
      s.queue.items.head? = some a.track ∧
      a.reshuffled = decide (s.queue.items.length ≤ s.state.playCount + 1) ∧
      a.playCount = (if a.reshuffled then 1 else s.state.playCount + 1) ∧
      (a.queue, a.words) = (if a.reshuffled then shuffle (s.queue.items.rotate 1) s.words
        else (s.queue.items.rotate 1, s.words)) := by
  obtain ⟨track, rest, hcons⟩ := List.exists_cons_of_ne_nil hitems
  rcases Nat.lt_or_ge s.state.playCount rest.length with hcount | hcount
  · have hadvance := @advance?_cons rest track s.state s.words fun _ => Nat.succ_lt_succ hcount
    rw [← hcons] at hadvance
    refine ⟨_, by rw [advance, hadvance], next_of_advance? hadvance, ?_⟩
    simp [hcons, hmode, PlayMode.isLoop, hcount]
  · have hadvance := @advance?_cons_of_le rest track s.state s.words hmode hcount
    rw [← hcons] at hadvance
    refine ⟨_, by rw [advance, hadvance], next_of_advance? hadvance, ?_⟩
    simp [hcons, hcount]

theorem perm_of_turned {items queue : List Track} {words words' : RandomWords} {reshuffled : Bool}
    (h : (queue, words') = if reshuffled then shuffle (items.rotate 1) words
      else (items.rotate 1, words)) : queue.Perm items := by
  have hqueue := congrArg Prod.fst h
  cases reshuffled with
  | false =>
    rw [show queue = items.rotate 1 from hqueue]
    exact List.rotate_perm items 1
  | true =>
    rw [show queue = (shuffle (items.rotate 1) words).1 from hqueue]
    exact (shuffle_perm _ _).trans (List.rotate_perm items 1)

/-- What holds after `k` calls of the random loop on these tracks. -/
structure Loops (s : Course) (items : List Track) (k : Nat) : Prop where
  mode : s.state.mode = .randomLoop
  perm : s.queue.items.Perm items
  count : s.state.playCount = lapCount items.length k

theorem Loops.ne_nil {items : List Track} (h : s.Loops items k) (hitems : items ≠ []) :
    s.queue.items ≠ [] := by
  intro hnil
  have hperm := h.perm
  rw [hnil] at hperm
  exact hitems hperm.nil_eq.symm

theorem Loops.next {items : List Track} (h : s.Loops items k) (hitems : items ≠ []) :
    s.next.2.Loops items (k + 1) := by
  obtain ⟨a, -, hnext, -, hreshuffled, hcount, hturned⟩ :=
    next_of_randomLoop h.mode (h.ne_nil hitems)
  rw [hnext]
  refine ⟨h.mode, (perm_of_turned hturned).trans h.perm, ?_⟩
  show a.playCount = _
  rw [hcount, hreshuffled, h.perm.length_eq, h.count,
    lapCount_succ (List.length_pos_iff.mpr hitems)]
  simp only [decide_eq_true_eq]

theorem loops_after {q : Queue} (hitems : q.items ≠ []) (words : RandomWords) (k : Nat) :
    ((⟨q, ⟨.randomLoop, 0⟩, words⟩ : Course).after k).Loops q.items k := by
  induction k with
  | zero => exact ⟨rfl, .rfl, (lapCount_of_lt (List.length_pos_iff.mpr hitems)).symm⟩
  | succ k ih => exact ih.next hitems

/-- In the random loop, from the count zero on, every call succeeds and turns the queue by one
track, and some calls shuffle it besides.  Of `n` tracks the call number `k + 1` does so exactly if
`n` is one, or if `n` calls were made with it, or any multiple of `n - 1` more.  The count is one
after such a call and grows with every other one, and the queue has the same tracks all the
time. -/
theorem reshuffle_schedule (q : Queue) (hsize : 1 ≤ q.length) (words : RandomWords) (k : Nat) :
    let s := (⟨q, ⟨.randomLoop, 0⟩, words⟩ : Course).after k
    let t := (⟨q, ⟨.randomLoop, 0⟩, words⟩ : Course).after (k + 1)
    ∃ a, advance s.queue.items s.state s.words = .ok a ∧
      s.next = (.ok a.track, t) ∧ t.queue.items = a.queue ∧ t.words = a.words ∧
      (a.reshuffled = true ↔ q.length = 1 ∨
        2 ≤ q.length ∧ q.length ≤ k + 1 ∧ q.length - 1 ∣ k + 1 - q.length) ∧
      (a.queue, a.words) = (if a.reshuffled then shuffle (s.queue.items.rotate 1) s.words
        else (s.queue.items.rotate 1, s.words)) ∧
      t.state = ⟨.randomLoop, if a.reshuffled then 1 else s.state.playCount + 1⟩ ∧
      1 ≤ t.state.playCount ∧ t.state.playCount ≤ max 1 (q.length - 1) ∧
      s.queue.items.Perm q.items ∧ t.queue.items.Perm q.items ∧
      (a.reshuffled = false → t.queue.items.getLast? = some a.track) := by
  intro s t
  have hitems : q.items ≠ [] := List.ne_nil_of_length_pos hsize
  have hs : s.Loops q.items k := loops_after hitems words k
  have ht : t.Loops q.items (k + 1) := loops_after hitems words (k + 1)
  obtain ⟨a, hadvance, hnext, hhead, hreshuffled, hcount, hturned⟩ :=
    next_of_randomLoop hs.mode (hs.ne_nil hitems)
  have hcall : s.next = (.ok a.track, t) := Prod.ext (by rw [hnext]) rfl
  have hafter := (Prod.mk.inj (hcall.symm.trans hnext)).2
  have hqueue : t.queue.items = a.queue := by rw [hafter]
  have hstate : t.state = ⟨.randomLoop, a.playCount⟩ := by rw [hafter, ← hs.mode]
  obtain ⟨hpos, hle⟩ := lapCount_succ_bounds hsize k
  refine ⟨a, hadvance, hcall, hqueue, by rw [hafter], ?_, hturned, by rw [hstate, hcount],
    ht.count ▸ hpos, ht.count ▸ hle, hs.perm, ht.perm, ?_⟩
  · rw [hreshuffled, decide_eq_true_iff, hs.perm.length_eq, hs.count]
    exact le_lapCount_iff hsize k
  · intro hfalse
    obtain ⟨track, rest, hcons⟩ := List.exists_cons_of_ne_nil (hs.ne_nil hitems)
    have hrotated : a.queue = s.queue.items.rotate 1 := by
      simpa [hfalse] using congrArg Prod.fst hturned
    rw [hcons] at hhead
    rw [hqueue, hrotated, hcons, ← hhead]
    simp

/-- Of three tracks the fourth call only turns the queue, and the fifth shuffles it besides: turned
alone it would begin with the first track again. -/
theorem reshuffle_schedule_of_three :
    let x := Track.direct "x"
    let y := Track.direct "y"
    let z := Track.direct "z"
    let q : Queue := ⟨[x, y, z], []⟩
    let s : Course := ⟨q, ⟨.randomLoop, 0⟩, [7, 4000000000, 9]⟩
    1 ≤ q.length ∧
      (∃ fourth : Advanced, (s.after 3).next = (.ok fourth.track, s.after 4) ∧
        fourth.reshuffled = false) ∧
      (s.after 3).queue.items = [y, z, x] ∧ (s.after 4).queue.items = [z, x, y] ∧
      (∃ fifth : Advanced, (s.after 4).next = (.ok fifth.track, s.after 5) ∧
        fifth.reshuffled = true) ∧
      (s.after 4).queue.items.rotate 1 = [x, y, z] ∧ (s.after 5).queue.items = [y, z, x] := by
  intro x y z q s
  have hsize : 1 ≤ q.length := by decide
  obtain ⟨fourth, -, hfourth, -, -, hstays, -⟩ :=
    reshuffle_schedule q hsize [7, 4000000000, 9] 3
  obtain ⟨fifth, -, hfifth, -, -, hshuffles, -⟩ :=
    reshuffle_schedule q hsize [7, 4000000000, 9] 4
  have hnot : fourth.reshuffled = false := by
    rw [Bool.eq_false_iff, Ne, hstays]
    decide
  exact ⟨hsize, ⟨fourth, hfourth, hnot⟩, by decide +kernel, by decide +kernel,
    ⟨fifth, hfifth, hshuffles.mpr (by decide)⟩, by decide +kernel, by decide +kernel⟩

end Course

end Jukebox
