import Jukebox.Proofs.Queue.Lap

/-!
# The laps of the random loop

The random loop shuffles the queue when the count of taken tracks has come to its length, and
then the count begins again.  It begins at zero only before the first lap.  After a shuffling it
begins at one, so every later lap is one track shorter than the queue: the track that has come to
the end of the shuffled queue is not played in it (`map_track_laterLap`).
-/

namespace Jukebox

/-- What successive calls for the next track lead to; the row ends early if the queue is empty. -/
def draws : Nat → List Track → ModeState → RandomWords → List Advanced
  | 0, _, _, _ => []
  | k + 1, items, state, words =>
    match advance? items state words with
    | none => []
    | some a => a :: draws k a.queue { state with playCount := a.playCount } a.words

/-- The tracks that successive calls of `Queue.next?` return. -/
def Queue.nexts : Nat → Queue → ModeState → RandomWords → List Track
  | 0, _, _, _ => []
  | k + 1, q, state, words =>
    match q.next? state words with
    | none => []
    | some taken => taken.track :: nexts k taken.queue taken.state taken.words

/-- The calls up to the first one that shuffles the queue, that one included. -/
inductive FirstLap : List Advanced → List Advanced → Prop
  | last {a : Advanced} (h : a.reshuffled = true) (rest : List Advanced) : FirstLap (a :: rest) [a]
  | cons {a : Advanced} {calls lap : List Advanced} (h : a.reshuffled = false)
      (later : FirstLap calls lap) : FirstLap (a :: calls) (a :: lap)

/-- The calls after one that shuffles the queue up to the next one that does, that one
included. -/
def LaterLap (calls lap : List Advanced) : Prop :=
  ∃ before a rest, calls = before ++ a :: rest ∧ a.reshuffled = true ∧ FirstLap rest lap

variable {items rest : List Track} {track : Track} {c k : Nat} {words : RandomWords}
  {calls lap : List Advanced}

theorem map_track_draws (k : Nat) (q : Queue) (state : ModeState) (words : RandomWords) :
    (draws k q.items state words).map Advanced.track = q.nexts k state words := by
  induction k generalizing q state words with
  | zero => rfl
  | succ k ih =>
    cases hadvance : advance? q.items state words with
    | none => simp [draws, Queue.nexts, Queue.next?, hadvance]
    | some a =>
      have hlater := ih { q with items := a.queue } { state with playCount := a.playCount } a.words
      simp [draws, Queue.nexts, Queue.next?, hadvance, hlater]

/-! ## Call after call -/

/-- Before the count has come to the length, the queue is rotated. -/
theorem draws_succ_of_lt (h : c < rest.length) (k : Nat) (words : RandomWords) :
    draws (k + 1) (track :: rest) ⟨.randomLoop, c⟩ words =
      ⟨track, rest ++ [track], c + 1, false, words⟩ ::
        draws k (rest ++ [track]) ⟨.randomLoop, c + 1⟩ words := by
  have hadvance := @advance?_cons rest track ⟨.randomLoop, c⟩ words fun _ =>
    Nat.succ_lt_succ h
  simp only [draws, hadvance, PlayMode.isLoop, if_true]

/-- When the count has come to the length, the queue is shuffled. -/
theorem draws_succ_of_le (h : rest.length ≤ c) (k : Nat) (words : RandomWords) :
    draws (k + 1) (track :: rest) ⟨.randomLoop, c⟩ words =
      ⟨track, (shuffle (rest ++ [track]) words).1, 1, true,
          (shuffle (rest ++ [track]) words).2⟩ ::
        draws k (shuffle (rest ++ [track]) words).1 ⟨.randomLoop, 1⟩
          (shuffle (rest ++ [track]) words).2 := by
  simp only [draws, @advance?_cons_of_le rest track ⟨.randomLoop, c⟩ words rfl h]

theorem length_draws (hitems : items ≠ []) (c k : Nat) (words : RandomWords) :
    (draws k items ⟨.randomLoop, c⟩ words).length = k := by
  induction k generalizing items c words with
  | zero => rfl
  | succ k ih =>
    obtain ⟨track, rest, rfl⟩ := List.exists_cons_of_ne_nil hitems
    by_cases hcount : c < rest.length
    · rw [draws_succ_of_lt hcount, List.length_cons, ih (by simp)]
    · have hshuffled : (shuffle (rest ++ [track]) words).1 ≠ [] := by
        intro hnil
        have hlength := length_shuffle (rest ++ [track]) words
        simp [hnil] at hlength
      rw [draws_succ_of_le (Nat.le_of_not_lt hcount), List.length_cons, ih hshuffled]

/-- A call that shuffles the queue leaves it in another order and the count at one, and all later
calls go on from there. -/
theorem draws_after {before after : List Advanced} {a : Advanced}
    (h : draws k items ⟨.randomLoop, c⟩ words = before ++ a :: after)
    (ha : a.reshuffled = true) :
    a.queue.Perm items ∧ after = draws (k - before.length - 1) a.queue ⟨.randomLoop, 1⟩ a.words := by
  induction before generalizing k items c words with
  | nil =>
    match k, items, h with
    | k + 1, track :: rest, h =>
      by_cases hcount : c < rest.length
      · rw [draws_succ_of_lt hcount] at h
        obtain ⟨rfl, -⟩ := List.cons.inj h
        cases ha
      · rw [draws_succ_of_le (Nat.le_of_not_lt hcount)] at h
        obtain ⟨rfl, rfl⟩ := List.cons.inj h
        refine ⟨(shuffle_perm _ _).trans (List.perm_append_singleton _ _), ?_⟩
        simp
  | cons b before ih =>
    match k, items, h with
    | k + 1, track :: rest, h =>
      have hshorter : k + 1 - (b :: before).length - 1 = k - before.length - 1 := by
        rw [List.length_cons]
        omega
      rw [hshorter]
      by_cases hcount : c < rest.length
      · rw [draws_succ_of_lt hcount] at h
        obtain ⟨hperm, hafter⟩ := ih (List.cons.inj h).2
        exact ⟨hperm.trans (List.perm_append_singleton _ _), hafter⟩
      · rw [draws_succ_of_le (Nat.le_of_not_lt hcount)] at h
        obtain ⟨hperm, hafter⟩ := ih (List.cons.inj h).2
        have hshuffle := (shuffle_perm (rest ++ [track]) words).trans
          (List.perm_append_singleton _ _)
        exact ⟨hperm.trans hshuffle, hafter⟩

/-! ## One lap -/

/-- The last call of a lap is the one that shuffles the queue. -/
theorem FirstLap.split (h : FirstLap calls lap) :
    ∃ before a after, calls = before ++ a :: after ∧ a.reshuffled = true ∧ lap = before ++ [a] := by
  induction h with
  | last h rest => exact ⟨[], _, rest, rfl, h, rfl⟩
  | @cons b calls lap hb later ih =>
    obtain ⟨before, a, after, hcalls, ha, hlap⟩ := ih
    exact ⟨b :: before, a, after, by rw [hcalls, List.cons_append], ha,
      by rw [hlap, List.cons_append]⟩

theorem FirstLap.length_le (h : FirstLap calls lap) : lap.length ≤ calls.length := by
  obtain ⟨before, a, after, rfl, -, rfl⟩ := h.split
  simp

/-- Where some call shuffles the queue there is a first one. -/
theorem exists_firstLap {before after : List Advanced} {a : Advanced} (ha : a.reshuffled = true) :
    ∃ lap, FirstLap (before ++ a :: after) lap ∧ lap.length ≤ before.length + 1 := by
  induction before with
  | nil => exact ⟨[a], .last ha after, Nat.le_refl 1⟩
  | cons b before ih =>
    cases hb : b.reshuffled with
    | true =>
      refine ⟨[b], .last hb _, ?_⟩
      simp
    | false =>
      obtain ⟨lap, hlap, hlength⟩ := ih
      refine ⟨b :: lap, .cons hb hlap, ?_⟩
      simpa using hlength

/-- A lap takes the tracks in their order, and as many as are missing from the count to the
length of the queue. -/
theorem map_track_firstLap (hcount : c < items.length)
    (h : FirstLap (draws k items ⟨.randomLoop, c⟩ words) lap) :
    lap.map Advanced.track = items.take (items.length - c) := by
  induction k generalizing items c words lap with
  | zero => cases h
  | succ k ih =>
    obtain ⟨track, rest, rfl⟩ := List.exists_cons_of_length_pos (Nat.zero_lt_of_lt hcount)
    rw [List.length_cons] at hcount
    by_cases hlast : c < rest.length
    · rw [draws_succ_of_lt hlast] at h
      cases h with
      | last h => cases h
      | @cons _ _ later _ hlater =>
        have hlength : (rest ++ [track]).length = rest.length + 1 := by simp
        have hmap := ih (by omega) hlater
        have hleft : (track :: rest).length - c = (rest.length - c) + 1 := by
          rw [List.length_cons]
          omega
        rw [hlength, Nat.add_sub_add_right, List.take_append_of_le_length (Nat.sub_le _ _)] at hmap
        rw [hleft, List.take_succ_cons, List.map_cons, hmap]
    · rw [draws_succ_of_le (Nat.le_of_not_lt hlast)] at h
      have hleft : (track :: rest).length - c = 1 := by
        rw [List.length_cons]
        omega
      rw [hleft]
      cases h with
      | last => rfl
      | cons h => cases h

/-- Every lap but the first leaves out the track at the end of the shuffled queue. -/
theorem map_track_laterLap (hsize : 2 ≤ items.length)
    (h : LaterLap (draws k items ⟨.randomLoop, c⟩ words) lap) :
    ∃ shuffled : List Track, shuffled.Perm items ∧ lap.map Advanced.track = shuffled.dropLast := by
  obtain ⟨before, a, rest, hcalls, ha, hlap⟩ := h
  obtain ⟨hperm, rfl⟩ := draws_after hcalls ha
  have hlength := hperm.length_eq
  refine ⟨a.queue, hperm, ?_⟩
  rw [map_track_firstLap (by omega) hlap, List.dropLast_eq_take]

/-! ## When a lap is over -/

theorem firstLap_iff_le (hcount : c < items.length) :
    (∃ lap, FirstLap (draws k items ⟨.randomLoop, c⟩ words) lap) ↔ items.length - c ≤ k := by
  have hitems : items ≠ [] := List.ne_nil_of_length_pos (Nat.zero_lt_of_lt hcount)
  constructor
  · rintro ⟨lap, hlap⟩
    have hle := hlap.length_le
    have hlength := congrArg List.length (map_track_firstLap hcount hlap)
    rw [length_draws hitems] at hle
    rw [List.length_map, List.length_take] at hlength
    omega
  · intro hle
    induction k generalizing items c words with
    | zero => omega
    | succ k ih =>
      obtain ⟨track, rest, rfl⟩ := List.exists_cons_of_ne_nil hitems
      rw [List.length_cons] at hcount hle
      by_cases hlast : c < rest.length
      · have hlength : (rest ++ [track]).length = rest.length + 1 := by simp
        obtain ⟨lap, hlap⟩ := @ih (rest ++ [track]) (c + 1) words (by omega) (by simp) (by omega)
        rw [draws_succ_of_lt hlast]
        exact ⟨_, .cons rfl hlap⟩
      · rw [draws_succ_of_le (Nat.le_of_not_lt hlast)]
        exact ⟨_, .last rfl _⟩

theorem laterLap_iff_le (hsize : 2 ≤ items.length) :
    (∃ lap, LaterLap (draws k items ⟨.randomLoop, 0⟩ words) lap) ↔ 2 * items.length - 1 ≤ k := by
  have hpos : 0 < items.length := by omega
  have hcalls := length_draws (List.ne_nil_of_length_pos hpos) 0 k words
  constructor
  · rintro ⟨lap, before, a, rest, hbefore, ha, hlap⟩
    obtain ⟨first, hfirst, hle⟩ := @exists_firstLap before rest a ha
    rw [← hbefore] at hfirst
    have hfirst := congrArg List.length (map_track_firstLap hpos hfirst)
    obtain ⟨hperm, hrest⟩ := draws_after hbefore ha
    have hlength := hperm.length_eq
    rw [hrest] at hlap
    have hlater := (firstLap_iff_le (by omega)).mp ⟨lap, hlap⟩
    rw [List.length_map, List.length_take] at hfirst
    rw [hbefore, List.length_append, List.length_cons] at hcalls
    omega
  · intro hle
    obtain ⟨first, hfirst⟩ := (@firstLap_iff_le items 0 k words hpos).mpr (by omega)
    have hlength := congrArg List.length (map_track_firstLap hpos hfirst)
    obtain ⟨before, a, after, hbefore, ha, rfl⟩ := hfirst.split
    obtain ⟨hperm, rfl⟩ := draws_after hbefore ha
    have hqueue := hperm.length_eq
    rw [List.length_map, List.length_append, List.length_singleton, List.length_take] at hlength
    obtain ⟨lap, hlap⟩ := (@firstLap_iff_le a.queue 1 (k - before.length - 1) a.words
      (by omega)).mpr (by omega)
    exact ⟨lap, before, a, _, hbefore, ha, hlap⟩

/-! ## Which tracks a lap plays -/

theorem count_dropLast {shuffled : List Track} (hnodup : shuffled.Nodup) (hne : shuffled ≠ []) :
    ∃ left ∈ shuffled, left ∉ shuffled.dropLast ∧
      ∀ t ∈ shuffled, t ≠ left → shuffled.dropLast.count t = 1 := by
  obtain ⟨init, left, rfl⟩ := (List.eq_nil_or_concat' shuffled).resolve_left hne
  rw [List.dropLast_concat]
  obtain ⟨hinit, -, hdisjoint⟩ := List.nodup_append.mp hnodup
  refine ⟨left, by simp, ?_, ?_⟩
  · intro hmem
    exact hdisjoint left hmem left (List.mem_singleton_self left) rfl
  · intro t ht hother
    have hmem : t ∈ init := by simpa [hother] using ht
    exact List.count_eq_one_of_mem hinit hmem

/-- In the random loop, from the count zero on, each track of the queue comes exactly once up to
the first shuffling.  Between any two shufflings one track does not come at all and each of the
others comes exactly once; this happens as soon as there are twice as many calls as tracks, less
one. -/
theorem Queue.later_laps_leave_one_out (q : Queue) (hdistinct : q.items.Nodup)
    (hsize : 2 ≤ q.length) (k : Nat) (words : RandomWords) :
    let calls := draws k q.items ⟨.randomLoop, 0⟩ words
    calls.map Advanced.track = q.nexts k ⟨.randomLoop, 0⟩ words ∧ calls.length = k ∧
      (∀ lap, FirstLap calls lap → ∀ t ∈ q.items, (lap.map Advanced.track).count t = 1) ∧
      (∀ lap, LaterLap calls lap → ∃ left ∈ q.items, left ∉ lap.map Advanced.track ∧
        ∀ t ∈ q.items, t ≠ left → (lap.map Advanced.track).count t = 1) ∧
      ((∃ lap, FirstLap calls lap) ↔ q.length ≤ k) ∧
      ((∃ lap, LaterLap calls lap) ↔ 2 * q.length - 1 ≤ k) := by
  intro calls
  have hpos : 0 < q.items.length := Nat.lt_of_lt_of_le Nat.two_pos hsize
  have hitems : q.items ≠ [] := List.ne_nil_of_length_pos hpos
  refine ⟨map_track_draws k q _ words, length_draws hitems 0 k words, ?_, ?_,
    firstLap_iff_le hpos, laterLap_iff_le hsize⟩
  · intro lap hlap t ht
    rw [map_track_firstLap hpos hlap, Nat.sub_zero, List.take_length]
    exact List.count_eq_one_of_mem hdistinct ht
  · intro lap hlap
    obtain ⟨shuffled, hperm, hmap⟩ := map_track_laterLap hsize hlap
    have hne : shuffled ≠ [] := List.ne_nil_of_length_pos (hperm.length_eq ▸ hpos)
    obtain ⟨left, hleft, hout, hothers⟩ := count_dropLast (hperm.nodup_iff.mpr hdistinct) hne
    rw [hmap]
    refine ⟨left, hperm.subset hleft, hout, ?_⟩
    intro t ht hother
    exact hothers t (hperm.symm.subset ht) hother

/-- Of two tracks the first lap plays both; with these random words the second is then played in
every lap and the first in none. -/
theorem Queue.later_laps_leave_one_out_of_two :
    let a := Track.remote "a"
    let b := Track.remote "b"
    let q : Queue := ⟨[a, b], []⟩
    q.items.Nodup ∧ 2 ≤ q.length ∧ q.nexts 5 ⟨.randomLoop, 0⟩ [] = [a, b, b, b, b] ∧
      ∃ lap, LaterLap (draws 5 q.items ⟨.randomLoop, 0⟩ []) lap ∧ ∃ left ∈ q.items,
        left ∉ lap.map Advanced.track := by
  intro a b q
  have hdistinct : q.items.Nodup := by decide +kernel
  have hsize : 2 ≤ q.length := by decide
  obtain ⟨-, -, -, hlater, -, hwhen⟩ := q.later_laps_leave_one_out hdistinct hsize 5 []
  obtain ⟨lap, hlap⟩ := hwhen.mpr (by decide)
  obtain ⟨left, hleft, hout, -⟩ := hlater lap hlap
  exact ⟨hdistinct, hsize, by decide +kernel, lap, hlap, left, hleft, hout⟩

/-- Two tracks are shuffled by the second call and by the third one, and between them only one of
the two comes. -/
theorem Queue.lap_between_shufflings_incomplete :
    let a := Track.remote "a"
    let b := Track.remote "b"
    let q : Queue := ⟨[a, b], []⟩
    q.items.Nodup ∧ 2 ≤ q.length ∧ q.nexts 4 ⟨.randomLoop, 0⟩ [] = [a, b, b, b] ∧
      ∃ lap, LaterLap (draws 4 q.items ⟨.randomLoop, 0⟩ []) lap ∧
        (lap.map Advanced.track).count a = 0 ∧ lap.map Advanced.track = [b] := by
  intro a b q
  have hcalls : draws 4 q.items ⟨.randomLoop, 0⟩ [] =
      [⟨a, [b, a], 1, false, []⟩, ⟨b, [b, a], 1, true, []⟩, ⟨b, [b, a], 1, true, []⟩,
        ⟨b, [b, a], 1, true, []⟩] := by rfl
  refine ⟨by decide +kernel, by decide, by decide +kernel, [⟨b, [b, a], 1, true, []⟩], ?_,
    by decide +kernel, rfl⟩
  rw [hcalls]
  exact ⟨[⟨a, [b, a], 1, false, []⟩], _, _, rfl, rfl, .last rfl _⟩

end Jukebox
