import Jukebox.Proofs.Entries

/-!
# Operations in flight

Operations stand in a list, each with its number and the stage that it has come to.  One of them
comes to another stage, or a new one comes in, and the others stay where they are.
-/

namespace Jukebox

namespace InFlight

variable {α : Type}

/-- The operations in flight, with one of them at another stage. -/
theorem lookup_map_stage (inFlight : List (Nat × α)) (op op' : Nat) (stage : α) :
    (inFlight.map fun entry => (entry.1, if entry.1 = op then stage else entry.2)).lookup op' =
      (inFlight.lookup op').map fun old => if op' = op then stage else old := by
  induction inFlight with
  | nil => rfl
  | cons entry inFlight ih =>
    obtain ⟨key, old⟩ := entry
    simp only [List.map_cons, Entries.lookup_cons_eq, ih]
    by_cases hkey : op' = key
    · subst hkey
      simp
    · simp [hkey]

/-- One more operation, with a number that no other has. -/
theorem lookup_append_fresh {inFlight : List (Nat × α)} {fresh : Nat}
    (h : inFlight.lookup fresh = none) (stage : α) (op : Nat) :
    (inFlight ++ [(fresh, stage)]).lookup op =
      if op = fresh then some stage else inFlight.lookup op := by
  rw [List.lookup_append, Entries.lookup_cons_eq]
  by_cases hop : op = fresh
  · subst hop
    simp [h]
  · simp [hop]

end InFlight

end Jukebox
