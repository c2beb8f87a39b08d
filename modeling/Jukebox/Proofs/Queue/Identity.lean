import Mathlib.Data.List.Perm.Basic
import Jukebox.Queue.Basic

/-!
# What the queue does to the identities of tracks

A track with exactly one of the two, a catalog number or a direct link, has an identity, and
two such tracks are the same exactly if their identities are.  `Carries` says that tracks are
handed on: every identity that was there before is there afterwards, whatever happens to the
descriptions.  The operations of the queue hand its tracks on; the exceptions are stated with
what they let go, the removed track or the entries that the history forgets.
-/

namespace Jukebox

/-- What a track is known by. -/
inductive Identity where
  | remote (id : String)
  | direct (link : String)
deriving DecidableEq, Repr

namespace Track

/-- The identity of a track that has exactly one. -/
def identity? (track : Track) : Option Identity :=
  match track.remoteKey?, track.directKey? with
  | some id, none => some (.remote id)
  | none, some link => some (.direct link)
  | _, _ => none

/-- A catalog number or a direct link is present, and not both. -/
def HasOneIdentity (track : Track) : Prop := track.identity?.isSome

instance (track : Track) : Decidable track.HasOneIdentity := inferInstanceAs (Decidable (_ = true))

@[simp] theorem identity?_inPlaylist (track : Track) (inPlaylist : Bool) :
    ({ track with inPlaylist } : Track).identity? = track.identity? := rfl

theorem identity?_cases {track : Track} {i : Identity} (h : track.identity? = some i) :
    (∃ id, track.remoteKey? = some id ∧ track.directKey? = none ∧ i = .remote id) ∨
      ∃ link, track.remoteKey? = none ∧ track.directKey? = some link ∧ i = .direct link := by
  unfold identity? at h
  split at h
  · next id hremote hdirect => exact .inl ⟨id, hremote, hdirect, (Option.some.inj h).symm⟩
  · next link hremote hdirect => exact .inr ⟨link, hremote, hdirect, (Option.some.inj h).symm⟩
  · cases h

/-- Tracks with one identity each are the same exactly if their identities are. -/
theorem same_iff {a b : Track} (ha : a.HasOneIdentity) (hb : b.HasOneIdentity) :
    a.same b = true ↔ a.identity? = b.identity? := by
  obtain ⟨i, hi⟩ := Option.isSome_iff_exists.mp ha
  obtain ⟨j, hj⟩ := Option.isSome_iff_exists.mp hb
  rw [hi, hj]
  rcases identity?_cases hi with ⟨id, har, had, rfl⟩ | ⟨link, har, had, rfl⟩
  · rcases identity?_cases hj with ⟨id', hbr, hbd, rfl⟩ | ⟨link', hbr, hbd, rfl⟩
    · simp [same, agree, har, had, hbr, hbd]
    · simp [same, agree, har, had, hbr, hbd]
  · rcases identity?_cases hj with ⟨id', hbr, hbd, rfl⟩ | ⟨link', hbr, hbd, rfl⟩
    · simp [same, agree, har, had, hbr, hbd]
    · simp [same, agree, har, had, hbr, hbd]

end Track

/-! ## Tracks that are handed on -/

/-- Every track has exactly one identity. -/
def Plain (tracks : List Track) : Prop := ∀ track ∈ tracks, track.HasOneIdentity

instance (tracks : List Track) : Decidable (Plain tracks) :=
  inferInstanceAs (Decidable (∀ track ∈ tracks, track.HasOneIdentity))

/-- Tracks are handed on: if they have one identity each, so have those afterwards, and none
of the identities is missing. -/
structure Carries (before after : List Track) : Prop where
  plain : Plain before → Plain after
  kept : Plain before → ∀ track ∈ before, ∃ other ∈ after, other.identity? = track.identity?

variable {before after middle : List Track}

theorem Plain.append (h : Plain before) (h' : Plain after) : Plain (before ++ after) := by
  intro track htrack
  rcases List.mem_append.mp htrack with htrack | htrack
  · exact h track htrack
  · exact h' track htrack

theorem Plain.of_subset (h : Plain before) (hsub : after ⊆ before) : Plain after :=
  fun track htrack => h track (hsub htrack)

theorem Plain.of_identities (h : Plain before)
    (heq : after.map Track.identity? = before.map Track.identity?) : Plain after := by
  intro track htrack
  have hmem : track.identity? ∈ before.map Track.identity? := by
    rw [← heq]
    exact List.mem_map_of_mem htrack
  obtain ⟨other, hother, hidentity⟩ := List.mem_map.mp hmem
  rw [Track.HasOneIdentity, ← hidentity]
  exact h other hother

namespace Carries

theorem of_subset (h : before ⊆ after) (h' : after ⊆ before) : Carries before after where
  plain hplain := hplain.of_subset h'
  kept _ track htrack := ⟨track, h htrack, rfl⟩

theorem of_perm (h : before.Perm after) : Carries before after :=
  of_subset h.subset h.symm.subset

theorem refl (before : List Track) : Carries before before := of_perm .rfl

theorem trans (h : Carries before middle) (h' : Carries middle after) :
    Carries before after where
  plain hplain := h'.plain (h.plain hplain)
  kept hplain track htrack := by
    obtain ⟨other, hother, heq⟩ := h.kept hplain track htrack
    obtain ⟨last, hlast, heq'⟩ := h'.kept (h.plain hplain) other hother
    exact ⟨last, hlast, heq'.trans heq⟩

theorem append {before' after' : List Track} (h : Carries before after)
    (h' : Carries before' after') : Carries (before ++ before') (after ++ after') where
  plain hplain :=
    (h.plain (hplain.of_subset (List.subset_append_left _ _))).append
      (h'.plain (hplain.of_subset (List.subset_append_right _ _)))
  kept hplain track htrack := by
    rcases List.mem_append.mp htrack with htrack | htrack
    · obtain ⟨other, hother, heq⟩ :=
        h.kept (hplain.of_subset (List.subset_append_left _ _)) track htrack
      exact ⟨other, List.mem_append_left _ hother, heq⟩
    · obtain ⟨other, hother, heq⟩ :=
        h'.kept (hplain.of_subset (List.subset_append_right _ _)) track htrack
      exact ⟨other, List.mem_append_right _ hother, heq⟩

theorem congr {before' after' : List Track} (h : Carries before after)
    (hbefore : ∀ track, track ∈ before' ↔ track ∈ before)
    (hafter : ∀ track, track ∈ after' ↔ track ∈ after) : Carries before' after' :=
  ((of_subset (fun _ => (hbefore _).mp) fun _ => (hbefore _).mpr).trans h).trans
    (of_subset (fun _ => (hafter _).mpr) fun _ => (hafter _).mp)

/-- A description gives way to another one of the same identity. -/
theorem absorb {track other : Track} (heq : other.identity? = track.identity?)
    (hother : other ∈ after) : Carries (track :: after) after where
  plain hplain := hplain.of_subset (List.subset_cons_self _ _)
  kept _ := by
    intro old hold
    rcases List.mem_cons.mp hold with rfl | hold
    · exact ⟨other, hother, heq⟩
    · exact ⟨old, hold, rfl⟩

/-- Another description of the same identity comes in. -/
theorem add {track other : Track} (heq : other.identity? = track.identity?)
    (htrack : track ∈ before) : Carries before (other :: before) where
  plain hplain := by
    intro last hlast
    rcases List.mem_cons.mp hlast with rfl | hlast
    · have hone : track.identity?.isSome := hplain track htrack
      rwa [← heq] at hone
    · exact hplain last hlast
  kept _ := fun last hlast => ⟨last, List.mem_cons_of_mem _ hlast, rfl⟩

theorem relabel {track other : Track} (heq : other.identity? = track.identity?) :
    Carries (track :: before) (other :: before) := by
  have hboth : Carries (track :: before) (track :: other :: before) :=
    (add heq List.mem_cons_self).trans (of_perm (List.Perm.swap _ _ _))
  exact hboth.trans (absorb heq List.mem_cons_self)

/-- Descriptions of one identity give way to one of them. -/
theorem merge {track : Track} (htrack : track ∈ before)
    (h : ∀ other ∈ before, other.identity? = track.identity?) : Carries before [track] where
  plain hplain := hplain.of_subset (by simpa using htrack)
  kept _ other hother := ⟨track, List.mem_singleton_self _, (h other hother).symm⟩

end Carries

/-! ## The operations of the queue -/

namespace Queue

variable {q q' : Queue} {track : Track}

/-- All that the queue holds: the tracks to come and the played ones. -/
def tracks (q : Queue) : List Track := q.items ++ q.history

/-- What is forgotten when a track was remembered, or nothing where none was. -/
inductive Forgets (q q' : Queue) : List Track → Prop
  | nothing : Forgets q q' []
  | oldest (played : Track) (h : q'.history = (played :: q.history).take historyLimit) :
      Forgets q q' ((played :: q.history).drop historyLimit)

theorem mem_placed {items : List Track} {place : Option Nat} {item : Track} :
    item ∈ placed items track place ↔
      item = track ∨ item ∈ items ∧ item.same track = false := by
  have hothers : item ∈ (items.filter fun item => !item.same track) ↔
      item ∈ items ∧ item.same track = false := by
    simp [List.mem_filter]
  unfold placed
  cases place with
  | none =>
    rw [List.mem_append, List.mem_singleton, hothers]
    exact or_comm
  | some i =>
    dsimp only
    split
    · next hlt => rw [List.mem_insertIdx (Nat.le_of_lt hlt), hothers]
    · rw [List.mem_append, List.mem_singleton, hothers]
      exact or_comm

theorem carries_placed (items : List Track) (track : Track) (place : Option Nat) :
    Carries (track :: items) (placed items track place) where
  plain hplain := by
    refine hplain.of_subset fun item hitem => ?_
    rcases mem_placed.mp hitem with rfl | ⟨hitem, -⟩
    · exact List.mem_cons_self
    · exact List.mem_cons_of_mem _ hitem
  kept hplain item hitem := by
    have htrack := hplain track List.mem_cons_self
    cases hsame : item.same track with
    | true =>
      have heq := (Track.same_iff (hplain item hitem) htrack).mp hsame
      exact ⟨track, mem_placed.mpr (.inl rfl), heq.symm⟩
    | false =>
      rcases List.mem_cons.mp hitem with rfl | hitem
      · exact ⟨item, mem_placed.mpr (.inl rfl), rfl⟩
      · exact ⟨item, mem_placed.mpr (.inr ⟨hitem, hsame⟩), rfl⟩

theorem carries_add (q : Queue) (track : Track) (place : Option Nat) :
    Carries (track :: q.tracks) (q.add track place).tracks :=
  (carries_placed q.items track place).append (.refl q.history)

theorem carries_addAll (q : Queue) (tracks : List Track) :
    Carries (tracks ++ q.tracks) (q.addAll tracks).tracks := by
  induction tracks generalizing q with
  | nil => exact .refl _
  | cons track tracks ih =>
    have hfirst : Carries (track :: tracks ++ q.tracks) (tracks ++ (q.addLast track).tracks) :=
      (Carries.of_perm List.perm_middle.symm).trans
        ((Carries.refl tracks).append (carries_add q track none))
    exact hfirst.trans (ih (q.addLast track))

/-- Two places that exchange their tracks hold the same tracks together. -/
theorem exchange_perm {i j : Nat} (h : q.exchange i j = .ok q') :
    q'.items.Perm q.items ∧ q'.history = q.history := by
  unfold exchange at h
  split at h
  · next a b hi hj =>
    obtain ⟨hilt, rfl⟩ := List.getElem?_eq_some_iff.mp hi
    obtain ⟨hjlt, rfl⟩ := List.getElem?_eq_some_iff.mp hj
    cases h
    exact ⟨List.set_set_perm hilt hjlt, rfl⟩
  · cases h
  · cases h

theorem remove_perm {index : Nat} (h : q.remove index = .ok (track, q')) :
    (track :: q'.items).Perm q.items ∧ q'.history = q.history := by
  unfold remove at h
  split at h
  · next removed hindex =>
    obtain ⟨hlt, rfl⟩ := List.getElem?_eq_some_iff.mp hindex
    cases h
    exact ⟨List.getElem_cons_eraseIdx_perm hlt, rfl⟩
  · cases h

theorem carries_exchange {i j : Nat} (h : q.exchange i j = .ok q') :
    Carries q.tracks q'.tracks := by
  obtain ⟨hperm, hhistory⟩ := exchange_perm h
  rw [tracks, tracks, hhistory]
  exact .of_perm (hperm.symm.append_right _)

theorem carries_remove {index : Nat} (h : q.remove index = .ok (track, q')) :
    Carries q.tracks (track :: q'.tracks) := by
  obtain ⟨hperm, hhistory⟩ := remove_perm h
  rw [tracks, tracks, hhistory]
  exact .of_perm (hperm.symm.append_right _)

theorem carries_shuffled (q : Queue) (words : RandomWords) :
    Carries q.tracks (q.shuffled words).1.tracks :=
  .of_perm ((shuffle_perm q.items words).symm.append_right _)

theorem carries_clear (q : Queue) : Carries q.tracks (q.items ++ q.clear.tracks) := .refl _

/-- A list of tracks that is laid over the queue in its place lets go what was to come. -/
theorem carries_replace (q : Queue) (tracks : List Track) :
    Carries (tracks ++ q.tracks) (q.items ++ (q.restore tracks .replace).tracks) := by
  have hclear : Carries (tracks ++ q.tracks) (q.items ++ (tracks ++ q.clear.tracks)) :=
    ((Carries.refl tracks).append q.carries_clear).trans
      (.of_perm (List.perm_append_comm_assoc _ _ _))
  exact hclear.trans ((Carries.refl q.items).append (carries_addAll q.clear tracks))

/-- Whatever the mode, the tracks of the queue are the next one and those that remain. -/
theorem subset_of_advance? {items : List Track} {state : ModeState} {words : RandomWords}
    {a : Advanced} (h : advance? items state words = some a) :
    items ⊆ a.track :: a.queue ∧ a.track :: a.queue ⊆ items := by
  cases items with
  | nil => cases h
  | cons track rest =>
    have hrest : track :: rest ⊆ track :: (if state.mode.isLoop then rest ++ [track] else rest) ∧
        track :: (if state.mode.isLoop then rest ++ [track] else rest) ⊆ track :: rest := by
      split <;> simp
    simp only [Jukebox.advance?] at h
    generalize (if state.mode.isLoop = true then rest ++ [track] else rest) = queue at h hrest
    generalize (if state.mode.isLoop = true then state.playCount + 1 else 1) = count at h
    split at h
    · cases h
      have hperm := (shuffle_perm queue words).cons track
      exact ⟨List.Subset.trans hrest.1 hperm.symm.subset,
        List.Subset.trans hperm.subset hrest.2⟩
    · cases h
      exact hrest

theorem carries_next? {state : ModeState} {words : RandomWords} {taken : Taken}
    (h : q.next? state words = some taken) : Carries q.tracks (taken.track :: taken.queue.tracks) := by
  obtain ⟨a, ha, rfl⟩ := Option.map_eq_some_iff.mp h
  obtain ⟨hsub, hsub'⟩ := subset_of_advance? ha
  exact (Carries.of_subset hsub hsub').append (.refl q.history)

/-- One more entry of the history lets go the oldest of too many. -/
theorem carries_remember (q : Queue) (track : Track) :
    Carries (track :: q.tracks)
      ((track :: q.history).drop historyLimit ++ (q.remember track).tracks) := by
  have hsplit : (q.remember track).history ++ (track :: q.history).drop historyLimit =
      track :: q.history := List.take_append_drop historyLimit (track :: q.history)
  have hperm : (track :: q.tracks).Perm (q.items ++ track :: q.history) :=
    List.perm_middle.symm
  rw [← hsplit, ← List.append_assoc] at hperm
  exact .of_perm (hperm.trans List.perm_append_comm)

theorem carries_takeBack? (h : q.takeBack? = some (track, q')) :
    Carries q.tracks (track :: q'.tracks) := by
  unfold takeBack? at h
  split at h
  · cases h
  · next played rest hhistory =>
    cases h
    exact .of_perm (by rw [tracks, hhistory]; exact List.perm_middle)

/-- A fuller description takes the place of an entry of the same identity. -/
theorem carries_refresh (q : Queue) (track : Track) :
    Carries (track :: q.tracks) (track :: (q.refresh track).tracks) := by
  have hgo : ∀ items : List Track,
      Carries (track :: items) (track :: refresh.go track items) := by
    intro items
    induction items with
    | nil => exact .refl _
    | cons item items ih =>
      cases hsame : item.same track with
      | true =>
        simp only [refresh.go, hsame, if_true]
        refine ⟨?_, ?_⟩
        · intro hplain other hother
          rcases List.mem_cons.mp hother with rfl | hother
          · exact hplain other List.mem_cons_self
          · rcases List.mem_cons.mp hother with rfl | hother
            · exact hplain track List.mem_cons_self
            · exact hplain other (List.mem_cons_of_mem _ (List.mem_cons_of_mem _ hother))
        · intro hplain other hother
          have hitem := hplain item (List.mem_cons_of_mem _ List.mem_cons_self)
          have heq := (Track.same_iff hitem (hplain track List.mem_cons_self)).mp hsame
          rcases List.mem_cons.mp hother with rfl | hother
          · exact ⟨other, List.mem_cons_self, rfl⟩
          · rcases List.mem_cons.mp hother with rfl | hother
            · exact ⟨track, List.mem_cons_self, heq.symm⟩
            · exact ⟨other, List.mem_cons_of_mem _ (List.mem_cons_of_mem _ hother), rfl⟩
      | false =>
        simp only [refresh.go, hsame, Bool.false_eq_true, if_false]
        have hswap : Carries (track :: item :: items) (item :: track :: items) :=
          .of_perm (List.Perm.swap _ _ _)
        have hback : Carries (item :: track :: refresh.go track items)
            (track :: item :: refresh.go track items) := .of_perm (List.Perm.swap _ _ _)
        exact hswap.trans (((Carries.refl [item]).append ih).trans hback)
  exact (hgo q.items).append (.refl q.history)

/-! ## The identities in their order -/

/-- A description of the same identity takes the place of another one. -/
theorem identities_refresh {q : Queue} {track : Track} (hplain : Plain q.items)
    (htrack : track.HasOneIdentity) :
    (q.refresh track).items.map Track.identity? = q.items.map Track.identity? := by
  have hgo : ∀ items : List Track, Plain items →
      (refresh.go track items).map Track.identity? = items.map Track.identity? := by
    intro items hitems
    induction items with
    | nil => rfl
    | cons item items ih =>
      have hitem : item.HasOneIdentity := hitems item List.mem_cons_self
      have hrest : Plain items := hitems.of_subset (List.subset_cons_self _ _)
      cases hsame : item.same track with
      | true =>
        have heq := (Track.same_iff hitem htrack).mp hsame
        simp only [refresh.go, hsame, if_true, List.map_cons, Track.identity?_inPlaylist, heq]
      | false =>
        simp only [refresh.go, hsame, Bool.false_eq_true, if_false, List.map_cons, ih hrest]
  exact hgo q.items hplain

theorem items_addFirst (q : Queue) (track : Track) :
    (q.addFirst track).items = track :: q.items.filter fun item => !item.same track := by
  simp only [addFirst, add, placed]
  split
  · rw [List.insertIdx_zero]
  · next hempty =>
    have hnone : (q.items.filter fun item => !item.same track) = [] := by
      simpa using hempty
    rw [hnone, List.nil_append]

/-- The identity that is put at the head is nowhere else. -/
theorem identities_addFirst {q : Queue} {track : Track} (hplain : Plain q.items)
    (htrack : track.HasOneIdentity) :
    (q.addFirst track).items.map Track.identity? =
      track.identity? :: (q.items.map Track.identity?).filter fun i => i ≠ track.identity? := by
  have hothers : ∀ item ∈ q.items,
      (!item.same track) = decide (item.identity? ≠ track.identity?) := by
    intro item hitem
    have hiff := Track.same_iff (hplain item hitem) htrack
    cases hsame : item.same track with
    | true => simp [hiff.mp hsame]
    | false =>
      have hne : item.identity? ≠ track.identity? := by
        intro heq
        rw [hiff.mpr heq] at hsame
        cases hsame
      simp [hne]
  rw [items_addFirst, List.map_cons, List.filter_congr hothers, List.filter_map]
  rfl

end Queue

end Jukebox
