import Mathlib.Data.List.Induction

/-!
# Lists of moves

Moves that are made one after the other, where a move may be impossible.  What one move keeps a
list of moves keeps.
-/

namespace Jukebox

namespace Moves

variable {σ μ : Type} {move? : σ → μ → Option σ} {s t u : σ} {m : μ} {moves more : List μ}

/-- The moves can be made one after the other and lead from one state to another. -/
def Lead (move? : σ → μ → Option σ) (s : σ) (moves : List μ) (t : σ) : Prop :=
  moves.foldlM move? s = some t

theorem lead_nil_iff : Lead move? s [] t ↔ s = t := by
  simp [Lead]

theorem lead_append_iff :
    Lead move? s (moves ++ more) u ↔ ∃ t, Lead move? s moves t ∧ Lead move? t more u := by
  simp only [Lead, List.foldlM_append]
  exact Option.bind_eq_some_iff

theorem lead_cons_iff :
    Lead move? s (m :: moves) u ↔ ∃ t, move? s m = some t ∧ Lead move? t moves u := by
  simp only [Lead, List.foldlM_cons]
  exact Option.bind_eq_some_iff

theorem lead_snoc_iff :
    Lead move? s (moves ++ [m]) u ↔ ∃ t, Lead move? s moves t ∧ move? t m = some u := by
  simp only [lead_append_iff, lead_cons_iff, lead_nil_iff, exists_eq_right]

theorem Lead.snoc (h : Lead move? s moves t) (hmove : move? t m = some u) :
    Lead move? s (moves ++ [m]) u :=
  lead_snoc_iff.mpr ⟨t, h, hmove⟩

theorem Lead.target_unique (h : Lead move? s moves t) (h' : Lead move? s moves u) : t = u :=
  Option.some.inj (Eq.trans (Eq.symm h) h')

/-- What is still to come once a part of the moves is made. -/
theorem Lead.next (h : Lead move? s (moves ++ m :: more) u) (h' : Lead move? s moves t) :
    ∃ v, move? t m = some v ∧ Lead move? v more u := by
  obtain ⟨t', hfirst, hrest⟩ := lead_append_iff.mp h
  obtain rfl := hfirst.target_unique h'
  exact lead_cons_iff.mp hrest

/-- What holds at the start and is kept by every move holds at the end; it may speak of the moves
that were made. -/
theorem Lead.invariant {P : List μ → σ → Prop} (h : Lead move? s moves t) (hstart : P [] s)
    (hmove : ∀ {moves : List μ} {t u : σ} {m : μ},
      Lead move? s moves t → P moves t → move? t m = some u → P (moves ++ [m]) u) :
    P moves t := by
  induction moves using List.reverseRecOn generalizing t with
  | nil =>
    obtain rfl := lead_nil_iff.mp h
    exact hstart
  | append_singleton moves m ih =>
    obtain ⟨u, hrun, hm⟩ := lead_snoc_iff.mp h
    exact hmove hrun (ih hrun) hm

end Moves

end Jukebox
