import Jukebox.Proofs.Queue.Duplicates
import Jukebox.Proofs.Queue.Lap

/-!
# A queue in two parts

While a cascade goes through the queue, the tracks that it has not come to stand first, and
those that went back to the end stand behind them.  Taking a track keeps the two parts apart,
also in the random loop as long as the count of the lap is that of the second part
(`exists_append_of_advance?`), and so does a fuller description (`exists_append_of_refresh`).
-/

namespace Jukebox

variable {rest done items : List Track} {track : Track} {state : ModeState}
  {words : RandomWords} {a : Advanced}

/-- The first track of the first part is taken, and in a loop mode it goes to the second. -/
theorem exists_append_of_advance? (h : advance? (rest ++ done) state words = some a)
    (hcount : state.mode = .randomLoop → rest ≠ [] → state.playCount = done.length) :
    ∃ later, a.queue = rest.tail ++ later ∧ (∀ other ∈ later, other ∈ done ∨ other = a.track) ∧
      (state.mode = .randomLoop → rest.tail ≠ [] → a.playCount = later.length) := by
  cases rest with
  | nil =>
    refine ⟨a.queue, rfl, ?_, fun _ hne => absurd rfl hne⟩
    intro other hother
    exact .inl ((Queue.subset_of_advance? h).2 (List.mem_cons_of_mem _ hother))
  | cons track rest =>
    by_cases hshuffles : state.mode = .randomLoop ∧ (rest ++ done).length ≤ state.playCount
    · obtain ⟨hmode, hle⟩ := hshuffles
      have hlength : rest.length = 0 := by
        rw [List.length_append, hcount hmode (by simp)] at hle
        omega
      obtain rfl := List.eq_nil_of_length_eq_zero hlength
      rw [List.cons_append, advance?_cons_of_le hmode hle] at h
      obtain rfl := Option.some.inj h
      refine ⟨_, rfl, ?_, fun _ hne => absurd rfl hne⟩
      intro other hother
      have hmem := (shuffle_perm _ _).mem_iff.mp hother
      simpa only [List.nil_append, List.mem_append, List.mem_singleton] using hmem
    · have hfew : state.mode = .randomLoop → state.playCount + 1 < (rest ++ done).length + 1 := by
        intro hmode
        have hlt : ¬(rest ++ done).length ≤ state.playCount := fun hle => hshuffles ⟨hmode, hle⟩
        omega
      rw [List.cons_append, advance?_cons hfew] at h
      obtain rfl := Option.some.inj h
      refine ⟨if state.mode.isLoop then done ++ [track] else done, ?_, ?_, ?_⟩
      · dsimp only [List.tail_cons]
        split
        · exact List.append_assoc _ _ _
        · rfl
      · intro other hother
        split at hother
        · simpa only [List.mem_append, List.mem_singleton] using hother
        · exact .inl hother
      · intro hmode _
        simp only [hmode, PlayMode.isLoop, if_true, List.length_append, List.length_singleton,
          hcount hmode (by simp)]

namespace Queue

theorem length_refresh_go (track : Track) (items : List Track) :
    (refresh.go track items).length = items.length := by
  rcases refresh_go_cases track items with ⟨-, hgo⟩ | ⟨before, item, after, rfl, -, -, hgo⟩
  · rw [hgo]
  · simp [hgo]

/-- A renewed entry is the same track as the one that it renews. -/
theorem mem_refresh_go {item : Track} (h : item ∈ refresh.go track items) :
    ∃ old ∈ items, old = item ∨ old.same item = true := by
  rcases refresh_go_cases track items with ⟨-, hgo⟩ | ⟨before, old, after, rfl, -, hsame, hgo⟩
  · rw [hgo] at h
    exact ⟨item, h, .inl rfl⟩
  · rw [hgo, List.mem_append, List.mem_cons] at h
    rcases h with h | rfl | h
    · exact ⟨item, by simp [h], .inl rfl⟩
    · exact ⟨old, by simp, .inr hsame⟩
    · exact ⟨item, by simp [h], .inl rfl⟩

theorem refresh_go_append (track : Track) (rest done : List Track) :
    refresh.go track (rest ++ done) = refresh.go track rest ++ done ∨
      refresh.go track (rest ++ done) = rest ++ refresh.go track done := by
  induction rest with
  | nil => exact .inr rfl
  | cons first rest ih =>
    cases hsame : first.same track with
    | true => exact .inl (by simp [refresh.go, hsame])
    | false => simpa [refresh.go, hsame] using ih

/-- A fuller description leaves both parts as long as they were, and of each entry of the second
part it is known which one it was. -/
theorem exists_append_of_refresh {q : Queue} (h : q.items = rest ++ done) (track : Track) :
    ∃ before later, (q.refresh track).items = before ++ later ∧ before.length = rest.length ∧
      later.length = done.length ∧
      ∀ item ∈ later, ∃ old ∈ done, old = item ∨ old.same item = true := by
  have hitems : (q.refresh track).items = refresh.go track (rest ++ done) :=
    congrArg (refresh.go track) h
  rcases refresh_go_append track rest done with hgo | hgo
  · exact ⟨_, done, hitems.trans hgo, length_refresh_go _ _, rfl,
      fun item hitem => ⟨item, hitem, .inl rfl⟩⟩
  · exact ⟨rest, _, hitems.trans hgo, rfl, length_refresh_go _ _, fun _ => mem_refresh_go⟩

end Queue

end Jukebox
