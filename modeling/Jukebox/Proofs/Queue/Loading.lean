import Jukebox.Proofs.Queue.Duplicates

/-!
# Many tracks at once

Tracks that are put at the end one after the other push out whatever is the same: an entry that
was there before, or a track that came in only a moment ago.  Being the same is no equivalence, so
a track may be pushed out by a later one that is itself pushed out again.  In the end a track stays
exactly if no later one is the same, and an entry of the queue stays exactly if none of the tracks
is the same (`Queue.loading_keeps`).
-/

namespace Jukebox

namespace Queue

open Track (Differs)

variable {q : Queue} {tracks : List Track}

/-- The tracks that no later one is the same as, in their order. -/
def unrepeated : List Track → List Track
  | [] => []
  | track :: later =>
    if ∀ other ∈ later, track.Differs other then track :: unrepeated later else unrepeated later

/-- The entries that none of the tracks is the same as, in their order. -/
def spared (items tracks : List Track) : List Track :=
  items.filter fun item => ∀ track ∈ tracks, item.Differs track

theorem unrepeated_eq_self (h : tracks.Pairwise Differs) : unrepeated tracks = tracks := by
  induction tracks with
  | nil => rfl
  | cons track later ih =>
    obtain ⟨hfirst, hlater⟩ := List.pairwise_cons.mp h
    rw [unrepeated, if_pos hfirst, ih hlater]

/-- One more track at the end goes after the entries that differ from it. -/
theorem addLast_eq (q : Queue) (track : Track) :
    q.addLast track = ⟨spared q.items [track] ++ [track], q.history⟩ := by
  have hfilter : (q.items.filter fun item => !item.same track) = spared q.items [track] := by
    apply List.filter_congr
    intro item _
    simp [Differs]
  rw [addLast, add, placed, hfilter]

theorem spared_append (items more tracks : List Track) :
    spared (items ++ more) tracks = spared items tracks ++ spared more tracks :=
  List.filter_append items more

theorem spared_spared (items : List Track) (track : Track) (later : List Track) :
    spared (spared items [track]) later = spared items (track :: later) := by
  rw [spared, spared, spared, List.filter_filter]
  apply List.filter_congr
  intro item _
  simp [Bool.and_comm]

/-- The first of some tracks is the one that all later ones have to spare. -/
theorem spared_append_unrepeated (track : Track) (later : List Track) :
    spared [track] later ++ unrepeated later = unrepeated (track :: later) := by
  by_cases h : ∀ other ∈ later, track.Differs other
  · have hkept : spared [track] later = [track] := List.filter_cons_of_pos (decide_eq_true h)
    rw [hkept, unrepeated, if_pos h, List.singleton_append]
  · have hgone : spared [track] later = [] :=
      List.filter_cons_of_neg (by simpa only [decide_eq_true_eq] using h)
    rw [hgone, unrepeated, if_neg h, List.nil_append]

/-- The induction is on the tracks and for every queue: what the first of them leaves is the queue
that the later ones find. -/
theorem addAll_eq (q : Queue) (tracks : List Track) :
    q.addAll tracks = ⟨spared q.items tracks ++ unrepeated tracks, q.history⟩ := by
  induction tracks generalizing q with
  | nil => simp [addAll, spared, unrepeated]
  | cons track later ih =>
    have hstep : q.addAll (track :: later) = (q.addLast track).addAll later := rfl
    rw [hstep, ih, addLast_eq]
    dsimp only
    rw [spared_append, spared_spared, List.append_assoc, spared_append_unrepeated]

theorem restore_replace_eq (q : Queue) (tracks : List Track) :
    q.restore tracks .replace = ⟨unrepeated tracks, q.history⟩ := by
  have hclear : q.restore tracks .replace = q.clear.addAll tracks := rfl
  rw [hclear, addAll_eq]
  rfl

/-- A list of tracks that is laid over the queue leaves those of them that no later one is the same
as, in their order, and if the queue is not replaced, before them the entries that none of them is
the same as; the history stays.  So a queue without duplicates remains one, and it is what comes of
laying its own entries over it. -/
theorem loading_keeps (h : q.NoDuplicates) (tracks : List Track) :
    q.restore tracks .replace = ⟨unrepeated tracks, q.history⟩ ∧
      q.restore tracks .append = ⟨spared q.items tracks ++ unrepeated tracks, q.history⟩ ∧
      q.addAll tracks = ⟨spared q.items tracks ++ unrepeated tracks, q.history⟩ ∧
      (∀ how, (q.restore tracks how).NoDuplicates) ∧ (q.addAll tracks).NoDuplicates ∧
      q.restore q.items .replace = q := by
  refine ⟨restore_replace_eq q tracks, addAll_eq q tracks, addAll_eq q tracks,
    h.restore tracks, h.addAll tracks, ?_⟩
  rw [restore_replace_eq, unrepeated_eq_self h]

/-- The second track is the same as the first and as the third, which differ.  It pushes out the
first, and the third pushes out the second. -/
theorem loading_keeps_of_chain :
    let number : Track := .remote "a"
    let both : Track := { number with directUrl := some "/a.mp3" }
    let link : Track := .direct "/a.mp3"
    let q : Queue := ⟨[number, .remote "c"], []⟩
    q.NoDuplicates ∧
      (q.restore [number, both, link] .replace).items = [link] ∧
      (q.restore [number, both, link] .append).items = [.remote "c", link] := by
  intro number both link q
  have hnone : q.NoDuplicates := by decide
  obtain ⟨hreplace, happend, -⟩ := loading_keeps hnone [number, both, link]
  rw [hreplace, happend]
  exact ⟨hnone, by decide, by decide⟩

end Queue

end Jukebox
