import Jukebox.Proofs.Queue.Parts

/-!
# Whether a track is in the queue

An entry is the track if the two mean the same; of tracks with neither a catalog number nor a link
only the description tells.  Whatever is done to a queue, an entry that is the track was there
before, or it was added, or a fuller description has made it out of another one.
-/

namespace Jukebox

/-- The item means the same track, or its description differs at most in whether it belongs to a
playlist. -/
def Track.Is (item track : Track) : Prop :=
  item.same track = true ∨ { item with inPlaylist := track.inPlaylist } = track

instance (item track : Track) : Decidable (item.Is track) :=
  inferInstanceAs (Decidable (_ ∨ _))

namespace Queue

/-- One of the tracks to come is this one. -/
def Lists (q : Queue) (track : Track) : Prop := ∃ item ∈ q.items, item.Is track

instance (q : Queue) (track : Track) : Decidable (q.Lists track) :=
  inferInstanceAs (Decidable (∃ item ∈ q.items, _))

variable {q q' : Queue} {track other : Track} {tracks : List Track} {place : Option Nat}

theorem Lists.of_subset (h : q'.Lists track) (hsub : q'.items ⊆ q.items) : q.Lists track := by
  obtain ⟨item, hitem, his⟩ := h
  exact ⟨item, hsub hitem, his⟩

theorem lists_congr (h : q.items = q'.items) : q.Lists track ↔ q'.Lists track := by
  rw [Lists, h, Lists]

theorem not_lists_clear (q : Queue) (track : Track) : ¬q.clear.Lists track := by
  rintro ⟨item, hitem, -⟩
  cases hitem

theorem lists_add (h : other.Is track) (q : Queue) (place : Option Nat) :
    (q.add other place).Lists track :=
  ⟨other, mem_placed.mpr (.inl rfl), h⟩

theorem Lists.of_add (h : (q.add other place).Lists track) : other.Is track ∨ q.Lists track := by
  obtain ⟨item, hitem, his⟩ := h
  rcases mem_placed.mp hitem with rfl | ⟨hitem, -⟩
  · exact .inl his
  · exact .inr ⟨item, hitem, his⟩

theorem Lists.of_addAll (h : (q.addAll tracks).Lists track) :
    (∃ other ∈ tracks, other.Is track) ∨ q.Lists track := by
  induction tracks generalizing q with
  | nil => exact .inr h
  | cons first tracks ih =>
    rcases ih h with ⟨other, hother, his⟩ | hadded
    · exact .inl ⟨other, List.mem_cons_of_mem _ hother, his⟩
    · exact hadded.of_add.imp_left fun his => ⟨first, List.mem_cons_self, his⟩

theorem Lists.of_restore {how : RestoreMode} (h : (q.restore tracks how).Lists track) :
    (∃ other ∈ tracks, other.Is track) ∨ q.Lists track := by
  cases how with
  | append => exact h.of_addAll
  | replace => exact h.of_addAll.imp_right fun hclear => (not_lists_clear q track hclear).elim

theorem Lists.of_exchange {i j : Nat} (h : q'.Lists track) (he : q.exchange i j = .ok q') :
    q.Lists track :=
  h.of_subset (exchange_perm he).1.subset

theorem Lists.of_remove {index : Nat} (h : q'.Lists track)
    (he : q.remove index = .ok (other, q')) : q.Lists track :=
  h.of_subset fun _ hitem => (remove_perm he).1.subset (List.mem_cons_of_mem _ hitem)

theorem Lists.of_shuffled {words : RandomWords} (h : (q.shuffled words).1.Lists track) :
    q.Lists track :=
  h.of_subset (shuffle_perm q.items words).subset

/-- In no mode is a track in the queue only after another one was taken. -/
theorem Lists.of_next? {state : ModeState} {words : RandomWords} {taken : Taken}
    (h : taken.queue.Lists track) (ht : q.next? state words = some taken) : q.Lists track := by
  obtain ⟨a, ha, rfl⟩ := Option.map_eq_some_iff.mp ht
  exact h.of_subset fun _ hitem => (subset_of_advance? ha).2 (List.mem_cons_of_mem _ hitem)

theorem lists_of_taken {state : ModeState} {words : RandomWords} {taken : Taken}
    (h : taken.track.Is track) (ht : q.next? state words = some taken) : q.Lists track := by
  obtain ⟨a, ha, rfl⟩ := Option.map_eq_some_iff.mp ht
  exact ⟨a.track, (subset_of_advance? ha).2 List.mem_cons_self, h⟩

/-- A fuller description may make the track out of an entry that means the same as it. -/
theorem Lists.of_refresh (h : (q.refresh other).Lists track) :
    q.Lists track ∨ other.Is track ∧ ∃ item ∈ q.items, item.same other = true := by
  obtain ⟨item, hitem, his⟩ := h
  rcases refresh_go_cases other q.items with ⟨-, hgo⟩ | ⟨before, old, after, heq, -, hold, hgo⟩
  · exact .inl ⟨item, hgo ▸ hitem, his⟩
  · have hmem : item ∈ before ++ { other with inPlaylist := old.inPlaylist } :: after := hgo ▸ hitem
    rw [List.mem_append, List.mem_cons] at hmem
    have hkept : ∀ {item : Track}, item ∈ before ∨ item ∈ after → item ∈ q.items := by
      intro item hitem
      rw [heq, List.mem_append, List.mem_cons]
      exact hitem.imp_right .inr
    rcases hmem with hbefore | rfl | hafter
    · exact .inl ⟨item, hkept (.inl hbefore), his⟩
    · exact .inr ⟨his, old, by simp [heq], hold⟩
    · exact .inl ⟨item, hkept (.inr hafter), his⟩

end Queue

end Jukebox
