import Jukebox.Proofs.Queue.Identity

/-!
# Duplicates in the queue

No two places of the queue should hold the same track.  Adding a track keeps this, since
whatever is the same goes away first, and so does everything that only moves or removes
entries.  Being the same is no equivalence: two entries that differ may both be the same as a
third track.  If the description of such a track is copied over the first of them, the second
is its duplicate, and this is the only way to get one (`Queue.noDuplicates_renewed_iff`).
-/

namespace Jukebox

/-- Two descriptions do not mean the same track. -/
def Track.Differs (a b : Track) : Prop := a.same b = false

instance (a b : Track) : Decidable (a.Differs b) := inferInstanceAs (Decidable (_ = false))

theorem Track.Differs.symm {a b : Track} (h : a.Differs b) : b.Differs a :=
  (Track.same_comm b a).trans h

/-- Two descriptions have the same catalog number and the same direct link. -/
structure Track.SameKeys (a b : Track) : Prop where
  remote : a.remoteKey? = b.remoteKey?
  direct : a.directKey? = b.directKey?

namespace Track

variable {a b a' b' : Track}

theorem SameKeys.refl (a : Track) : SameKeys a a := ⟨rfl, rfl⟩

theorem SameKeys.symm (h : SameKeys a b) : SameKeys b a := ⟨h.remote.symm, h.direct.symm⟩

theorem SameKeys.same_eq (h : SameKeys a a') (h' : SameKeys b b') : a.same b = a'.same b' := by
  simp only [same, h.remote, h.direct, h'.remote, h'.direct]

theorem SameKeys.identity?_eq (h : SameKeys a b) : a.identity? = b.identity? := by
  simp only [identity?, h.remote, h.direct]

theorem agree_self {a b : Option String} (h : agree a b = true) : agree b b = true := by
  cases b with
  | none => cases a <;> cases h
  | some b => simp [agree]

/-- A track that another one is the same as is the same as itself. -/
theorem same_self (h : a.same b = true) : b.same b = true := by
  unfold same at h ⊢
  rcases Bool.or_eq_true_iff.mp h with h | h
  · simp [agree_self h]
  · simp [agree_self h]

end Track

namespace Queue

open Track (Differs)

/-- No two places of the queue hold the same track. -/
def NoDuplicates (q : Queue) : Prop := q.items.Pairwise Differs

instance (q : Queue) : Decidable q.NoDuplicates :=
  inferInstanceAs (Decidable (q.items.Pairwise Differs))

variable {q q' : Queue} {track : Track}

/-! ## Entries that move, come in or go away -/

theorem noDuplicates_congr (h : q.items = q'.items) : q.NoDuplicates ↔ q'.NoDuplicates := by
  rw [NoDuplicates, h, NoDuplicates]

theorem items_takeBack? (h : q.takeBack? = some (track, q')) : q'.items = q.items := by
  unfold takeBack? at h
  split at h
  · cases h
  · cases h
    rfl

theorem NoDuplicates.of_perm (h : q.NoDuplicates) (hperm : q.items.Perm q'.items) :
    q'.NoDuplicates :=
  (hperm.pairwise_iff Differs.symm).mp h

theorem NoDuplicates.of_sublist (h : q.NoDuplicates) (hsub : q'.items.Sublist q.items) :
    q'.NoDuplicates :=
  List.Pairwise.sublist hsub h

theorem placed_perm (items : List Track) (track : Track) (place : Option Nat) :
    (placed items track place).Perm (track :: items.filter fun item => !item.same track) := by
  unfold placed
  cases place with
  | none => exact List.perm_append_singleton _ _
  | some i =>
    dsimp only
    split
    · next hlt => exact List.perm_insertIdx _ _ (Nat.le_of_lt hlt)
    · exact List.perm_append_singleton _ _

/-- Beside a track that was added there are the entries that differ from it, and no others. -/
theorem noDuplicates_add_iff {place : Option Nat} :
    (q.add track place).NoDuplicates ↔
      (q.items.filter fun item => !item.same track).Pairwise Differs := by
  have hperm : (q.add track place).items.Perm
      (track :: q.items.filter fun item => !item.same track) := placed_perm _ _ _
  have hhead : ∀ item ∈ q.items.filter (fun item => !item.same track), track.Differs item := by
    intro item hitem
    have hsame : item.same track = false := by simpa using (List.mem_filter.mp hitem).2
    exact Differs.symm hsame
  calc (q.add track place).NoDuplicates
      ↔ (track :: q.items.filter fun item => !item.same track).Pairwise Differs :=
        hperm.pairwise_iff Differs.symm
    _ ↔ (q.items.filter fun item => !item.same track).Pairwise Differs := by
        rw [List.pairwise_cons]
        exact and_iff_right hhead

theorem NoDuplicates.add (h : q.NoDuplicates) (track : Track) (place : Option Nat) :
    (q.add track place).NoDuplicates :=
  noDuplicates_add_iff.mpr (List.Pairwise.filter _ h)

theorem NoDuplicates.addAll (h : q.NoDuplicates) (tracks : List Track) :
    (q.addAll tracks).NoDuplicates := by
  induction tracks generalizing q with
  | nil => exact h
  | cons track tracks ih => exact ih (h.add track none)

theorem noDuplicates_clear (q : Queue) : q.clear.NoDuplicates := List.Pairwise.nil

theorem NoDuplicates.restore (h : q.NoDuplicates) (tracks : List Track) (how : RestoreMode) :
    (q.restore tracks how).NoDuplicates := by
  cases how with
  | replace => exact q.noDuplicates_clear.addAll tracks
  | append => exact h.addAll tracks

theorem NoDuplicates.exchange {i j : Nat} (h : q.NoDuplicates) (he : q.exchange i j = .ok q') :
    q'.NoDuplicates :=
  h.of_perm (exchange_perm he).1.symm

theorem NoDuplicates.remove {index : Nat} (h : q.NoDuplicates)
    (he : q.remove index = .ok (track, q')) : q'.NoDuplicates := by
  unfold Queue.remove at he
  split at he
  · cases he
    exact h.of_sublist (List.eraseIdx_sublist _ _)
  · cases he

theorem NoDuplicates.shuffled (h : q.NoDuplicates) (words : RandomWords) :
    (q.shuffled words).1.NoDuplicates :=
  h.of_perm (shuffle_perm q.items words).symm

/-- What remains when a track is taken are some of the entries, in another order. -/
theorem subperm_of_advance? {items : List Track} {state : ModeState} {words : RandomWords}
    {a : Advanced} (h : advance? items state words = some a) :
    ∃ rest, a.queue.Perm rest ∧ rest.Sublist items := by
  cases items with
  | nil => cases h
  | cons track rest =>
    have hqueue : ∃ kept : List Track, (if state.mode.isLoop then rest ++ [track] else rest).Perm
        kept ∧ kept.Sublist (track :: rest) := by
      split
      · exact ⟨track :: rest, List.perm_append_singleton _ _, .refl _⟩
      · exact ⟨rest, .rfl, List.sublist_cons_self _ _⟩
    obtain ⟨kept, hperm, hsub⟩ := hqueue
    refine ⟨kept, ?_, hsub⟩
    simp only [Jukebox.advance?] at h
    generalize (if state.mode.isLoop = true then rest ++ [track] else rest) = queue at h hperm
    generalize (if state.mode.isLoop = true then state.playCount + 1 else 1) = count at h
    split at h
    · cases h
      exact (shuffle_perm queue words).trans hperm
    · cases h
      exact hperm

theorem NoDuplicates.next? {state : ModeState} {words : RandomWords} {taken : Taken}
    (h : q.NoDuplicates) (ht : q.next? state words = some taken) :
    taken.queue.NoDuplicates := by
  obtain ⟨a, ha, rfl⟩ := Option.map_eq_some_iff.mp ht
  obtain ⟨kept, hperm, hsub⟩ := subperm_of_advance? ha
  have hkept : (⟨kept, q.history⟩ : Queue).NoDuplicates := h.of_sublist hsub
  exact hkept.of_perm hperm.symm

theorem track_of_advance? {rest : List Track} {state : ModeState} {words : RandomWords}
    {a : Advanced} (h : advance? (track :: rest) state words = some a) : a.track = track := by
  simp only [Jukebox.advance?] at h
  generalize (if state.mode.isLoop = true then rest ++ [track] else rest) = queue at h
  generalize (if state.mode.isLoop = true then state.playCount + 1 else 1) = count at h
  split at h
  · cases h
    rfl
  · cases h
    rfl

/-- Of the entries that are left when a track is taken, only its own is the same. -/
theorem NoDuplicates.eq_of_same_next? {state : ModeState} {words : RandomWords} {taken : Taken}
    {item : Track} (h : q.NoDuplicates) (ht : q.next? state words = some taken)
    (hitem : item ∈ taken.queue.items) (hsame : item.same taken.track = true) :
    item = taken.track := by
  obtain ⟨a, ha, rfl⟩ := Option.map_eq_some_iff.mp ht
  obtain ⟨kept, hperm, hsub⟩ := subperm_of_advance? ha
  have hmem : item ∈ q.items := hsub.subset (hperm.mem_iff.mp hitem)
  unfold NoDuplicates at h
  cases hitems : q.items with
  | nil =>
    rw [hitems] at ha
    cases ha
  | cons track rest =>
    rw [hitems] at h ha hmem
    have htrack : a.track = track := track_of_advance? ha
    rcases List.mem_cons.mp hmem with rfl | hrest
    · exact htrack.symm
    · have hdiffers : item.Differs track := ((List.pairwise_cons.mp h).1 item hrest).symm
      rw [Differs, ← htrack, hsame] at hdiffers
      cases hdiffers

/-! ## A description that is copied over an entry -/

/-- The entry does not give way to the track that is put at the head. -/
def stays (head : Option Track) (item : Track) : Bool := head.all fun first => !item.same first

/-- The queue with a fuller description of a track, and then with another track at its head. -/
def renewed (q : Queue) (track : Track) : Option Track → Queue
  | none => q.refresh track
  | some first => (q.refresh track).addFirst first

/-- Of the entries that are the same as the track, one besides the first stays, and so does
the track itself. -/
def Doubles (q : Queue) (track : Track) (head : Option Track) : Prop :=
  stays head track = true ∧ ∃ item ∈ (q.items.filter (·.same track)).tail, stays head item = true

instance (q : Queue) (track : Track) (head : Option Track) : Decidable (q.Doubles track head) :=
  inferInstanceAs (Decidable (_ ∧ _))

/-- The description goes to the first entry of the same track, if there is one. -/
theorem refresh_go_cases (track : Track) (items : List Track) :
    (items.filter (·.same track) = [] ∧ refresh.go track items = items) ∨
      ∃ before item after, items = before ++ item :: after ∧
        (∀ other ∈ before, other.same track = false) ∧ item.same track = true ∧
        refresh.go track items =
          before ++ { track with inPlaylist := item.inPlaylist } :: after := by
  induction items with
  | nil => exact .inl ⟨rfl, rfl⟩
  | cons item items ih =>
    cases hsame : item.same track with
    | true => exact .inr ⟨[], item, items, rfl, nofun, hsame, by simp [refresh.go, hsame]⟩
    | false =>
      rcases ih with ⟨hnone, hgo⟩ | ⟨before, other, after, rfl, hbefore, hother, hgo⟩
      · exact .inl ⟨by simp [hsame, hnone], by simp [refresh.go, hsame, hgo]⟩
      · refine .inr ⟨item :: before, other, after, rfl, ?_, hother, by simp [refresh.go, hsame, hgo]⟩
        intro earlier hearlier
        rcases List.mem_cons.mp hearlier with rfl | hearlier
        · exact hsame
        · exact hbefore earlier hearlier

theorem noDuplicates_renewed_iff_filter {head : Option Track} :
    (q.renewed track head).NoDuplicates ↔
      ((q.refresh track).items.filter (stays head)).Pairwise Differs := by
  cases head with
  | none =>
    have hall : (q.refresh track).items.filter (stays none) = (q.refresh track).items :=
      List.filter_eq_self.mpr fun _ _ => rfl
    rw [hall]
    exact Iff.rfl
  | some first => exact noDuplicates_add_iff

theorem pairwise_insert_iff {before after : List Track}
    (h : (before ++ after).Pairwise Differs) (hbefore : ∀ other ∈ before, other.Differs track) :
    (before ++ track :: after).Pairwise Differs ↔ ∀ other ∈ after, track.Differs other := by
  have hperm : (before ++ track :: after).Perm (track :: (before ++ after)) := List.perm_middle
  rw [hperm.pairwise_iff Differs.symm, List.pairwise_cons, and_iff_left h]
  constructor
  · intro hall other hother
    exact hall other (List.mem_append_right _ hother)
  · intro hafter other hother
    rcases List.mem_append.mp hother with hother | hother
    · exact (hbefore other hother).symm
    · exact hafter other hother

theorem pairwise_filter_insert_iff {before after : List Track} (p : Track → Bool)
    (h : (before ++ after).Pairwise Differs) (hbefore : ∀ other ∈ before, other.Differs track) :
    ((before ++ track :: after).filter p).Pairwise Differs ↔
      (p track = true → ∀ other ∈ after, p other = true → track.Differs other) := by
  have hkept : (before.filter p ++ after.filter p).Pairwise Differs := by
    rw [← List.filter_append]
    exact List.Pairwise.filter p h
  have hfirst : ∀ other ∈ before.filter p, other.Differs track :=
    fun other hother => hbefore other (List.mem_filter.mp hother).1
  rw [List.filter_append, List.filter_cons]
  cases hp : p track with
  | false =>
    simp only [Bool.false_eq_true, if_false, false_implies, iff_true]
    exact hkept
  | true =>
    rw [if_pos rfl, pairwise_insert_iff hkept hfirst]
    constructor
    · intro hall _ other hother hpo
      exact hall other (List.mem_filter.mpr ⟨hother, hpo⟩)
    · intro hall other hother
      obtain ⟨hother, hpo⟩ := List.mem_filter.mp hother
      exact hall rfl other hother hpo

/-- A fuller description makes a duplicate exactly if a second entry is the same as the
track. -/
theorem noDuplicates_renewed_iff (h : q.NoDuplicates) {head : Option Track} :
    (q.renewed track head).NoDuplicates ↔ ¬q.Doubles track head := by
  rw [noDuplicates_renewed_iff_filter]
  rcases refresh_go_cases track q.items with ⟨hnone, hgo⟩ |
    ⟨before, item, after, hitems, hbefore, hitem, hgo⟩
  · have hsame : (q.refresh track).items = q.items := hgo
    rw [hsame]
    refine iff_of_true (List.Pairwise.filter _ h) ?_
    rintro ⟨-, other, hother, -⟩
    rw [hnone] at hother
    cases hother
  · have hrenewed : (q.refresh track).items =
        before ++ { track with inPlaylist := item.inPlaylist } :: after := hgo
    have hothers : (before ++ after).Pairwise Differs := by
      have hsub : (before ++ after).Sublist (before ++ item :: after) :=
        (List.Sublist.refl before).append (List.sublist_cons_self item after)
      exact List.Pairwise.sublist hsub (hitems ▸ h)
    -- The entries before the first that is the same play no part.
    have hmatching : (q.items.filter (·.same track)).tail = after.filter (·.same track) := by
      have hnone : before.filter (·.same track) = [] := by
        rw [List.filter_eq_nil_iff]
        intro other hother
        simp [hbefore other hother]
      simp [hitems, hnone, hitem]
    have hinsert : ((before ++ { track with inPlaylist := item.inPlaylist } :: after).filter
          (stays head)).Pairwise Differs ↔
        (stays head track = true → ∀ other ∈ after, stays head other = true →
          track.Differs other) := pairwise_filter_insert_iff (stays head) hothers hbefore
    rw [hrenewed, hinsert, Doubles, hmatching]
    constructor
    · rintro hall ⟨htrack, other, hother, hstays⟩
      obtain ⟨hother, hsame⟩ := List.mem_filter.mp hother
      have hdiffers : other.Differs track := (hall htrack other hother hstays).symm
      rw [Differs, hsame] at hdiffers
      cases hdiffers
    · intro hdoubles htrack other hother hstays
      have hdiffers : other.same track = false := by
        refine Bool.eq_false_iff.mpr fun hsame => hdoubles ⟨htrack, other, ?_, hstays⟩
        exact List.mem_filter.mpr ⟨hother, hsame⟩
      exact Differs.symm hdiffers

end Queue

end Jukebox
