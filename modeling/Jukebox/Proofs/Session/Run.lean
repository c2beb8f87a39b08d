import Jukebox.Proofs.InFlight
import Jukebox.Proofs.Moves
import Jukebox.Session.System

/-!
# Runs of logins and refreshes

A run is the list of the moves that lead from one system of logins and refreshes to another:
requests that come in, stages that go on, and answers of the catalog, in any order
(`AccountSystem.reaches_iff_exists_run`).  What a move does is read off through
`AccountSystem.stage?`: the operation comes to its next stage, or leaves, and every other
operation stays where it is.
-/

namespace Jukebox

/-- What may happen next, told by what brings it about. -/
inductive AccountMove where
  | arrive (request : AccountRequest)
  | proceed (op : Nat)
  | answer (op : Nat) (reply : ApiReply)

namespace AccountStage

/-- A stage at which the operation is still in flight. -/
def underWay? : AccountStage → Option AccountStage
  | .finished _ => none
  | stage => some stage

@[simp] theorem underWay?_eq_some {stage other : AccountStage} :
    stage.underWay? = some other ↔ stage = other ∧ ∀ result, stage ≠ .finished result := by
  cases stage <;> simp [underWay?]

end AccountStage

namespace AccountSystem

variable {malformed : String} {s t u : AccountSystem} {m : AccountMove}
  {moves more : List AccountMove} {op : Nat}

/-- Where an operation stands; `none` if it is not in flight. -/
def stage? (s : AccountSystem) (op : Nat) : Option AccountStage := s.inFlight.lookup op

/-- The system after a move; `none` where the move cannot be made. -/
def move? (malformed : String) (s : AccountSystem) : AccountMove → Option AccountSystem
  | .arrive request => some (s.arrive request)
  | .proceed op => s.proceed? op
  | .answer op reply => s.answer? malformed op reply

/-- The moves lead from one system to another. -/
def Run (malformed : String) (s : AccountSystem) (moves : List AccountMove)
    (t : AccountSystem) : Prop :=
  moves.foldlM (move? malformed) s = some t

/-! ## Runs and their parts -/

theorem Run.nil : Run malformed s [] s := rfl

theorem run_nil_iff : Run malformed s [] t ↔ s = t := Moves.lead_nil_iff

theorem run_snoc_iff :
    Run malformed s (moves ++ [m]) u ↔
      ∃ t, Run malformed s moves t ∧ t.move? malformed m = some u :=
  Moves.lead_snoc_iff

theorem Run.snoc (h : Run malformed s moves t) (hmove : t.move? malformed m = some u) :
    Run malformed s (moves ++ [m]) u :=
  Moves.Lead.snoc h hmove

theorem Run.target_unique (h : Run malformed s moves t) (h' : Run malformed s moves u) : t = u :=
  Moves.Lead.target_unique h h'

/-- What a run does once a part of its moves is made. -/
theorem Run.next (h : Run malformed s (moves ++ m :: more) u) (h' : Run malformed s moves t) :
    ∃ v, t.move? malformed m = some v ∧ Run malformed v more u :=
  Moves.Lead.next h h'

/-- What holds at the start of a run and is kept by every move holds at its end; it may speak of
the moves that were made. -/
theorem Run.invariant {P : List AccountMove → AccountSystem → Prop}
    (h : Run malformed s moves t) (hstart : P [] s)
    (hmove : ∀ {moves : List AccountMove} {t u : AccountSystem} {m : AccountMove},
      Run malformed s moves t → P moves t → t.move? malformed m = some u → P (moves ++ [m]) u) :
    P moves t :=
  Moves.Lead.invariant h hstart hmove

/-- The system after some moves, if they can be made. -/
def after (malformed : String) (s : AccountSystem) (moves : List AccountMove) : AccountSystem :=
  (moves.foldlM (move? malformed) s).getD s

theorem run_after (h : (moves.foldlM (move? malformed) s).isSome) :
    Run malformed s moves (s.after malformed moves) := by
  obtain ⟨t, ht⟩ := Option.isSome_iff_exists.mp h
  have hafter : s.after malformed moves = t := by simp [after, ht]
  rw [hafter]
  exact ht

theorem step_iff_exists_move : Step malformed s t ↔ ∃ m, s.move? malformed m = some t := by
  constructor
  · intro h
    cases h with
    | arrive request => exact ⟨.arrive request, rfl⟩
    | proceed op h => exact ⟨.proceed op, h⟩
    | answer op reply h => exact ⟨.answer op reply, h⟩
  · rintro ⟨m, h⟩
    cases m with
    | arrive request =>
      obtain rfl : s.arrive request = t := Option.some.inj h
      exact .arrive s request
    | proceed op => exact .proceed op h
    | answer op reply => exact .answer op reply h

/-- A system is reached exactly if a run leads to it. -/
theorem reaches_iff_exists_run :
    Reaches malformed s t ↔ ∃ moves, Run malformed s moves t := by
  constructor
  · intro h
    induction h with
    | refl => exact ⟨[], .nil⟩
    | tail _ step ih =>
      obtain ⟨moves, hrun⟩ := ih
      obtain ⟨m, hm⟩ := step_iff_exists_move.mp step
      exact ⟨moves ++ [m], hrun.snoc hm⟩
  · rintro ⟨moves, hrun⟩
    refine hrun.invariant (P := fun _ t => Reaches malformed s t) .refl ?_
    intro moves t u m _ h hm
    exact h.tail (step_iff_exists_move.mpr ⟨m, hm⟩)

/-! ## What a move changes -/

/-- The next number is larger than that of any operation in flight. -/
def Fresh (s : AccountSystem) : Prop := ∀ ⦃op stage⦄, s.stage? op = some stage → op < s.fresh

theorem fresh_start (account : Account) : (start account).Fresh := by
  intro op stage h
  cases h

@[simp] theorem moved_account (s : AccountSystem) (op : Nat) (stage : AccountStage) :
    (s.moved op stage).account = s.account := by
  cases stage <;> rfl

@[simp] theorem moved_fresh (s : AccountSystem) (op : Nat) (stage : AccountStage) :
    (s.moved op stage).fresh = s.fresh := by
  cases stage <;> rfl

theorem stage?_moved {old : AccountStage} (h : s.stage? op = some old) (stage : AccountStage)
    (op' : Nat) :
    (s.moved op stage).stage? op' = if op' = op then stage.underWay? else s.stage? op' := by
  have hmap : ∀ stage : AccountStage,
      (s.inFlight.map fun entry => (entry.1, if entry.1 = op then stage else entry.2)).lookup
        op' = if op' = op then some stage else s.inFlight.lookup op' := by
    intro stage
    rw [InFlight.lookup_map_stage]
    by_cases hop : op' = op
    · subst hop
      have hold : s.inFlight.lookup op' = some old := h
      simp [hold]
    · simp [hop]
  cases stage with
  | finished result => exact Entries.lookup_filter_ne s.inFlight op op'
  | _ => exact hmap _

theorem Fresh.moved {old : AccountStage} (hs : s.Fresh) (hold : s.stage? op = some old)
    (stage : AccountStage) : (s.moved op stage).Fresh := by
  intro op' stage' hstage'
  rw [stage?_moved hold] at hstage'
  rw [moved_fresh]
  by_cases hop : op' = op
  · subst hop
    exact hs hold
  · rw [if_neg hop] at hstage'
    exact hs hstage'

/-- What a move does to the account, and where it leads the operation that it is about. -/
inductive Made (malformed : String) (s t : AccountSystem) : AccountMove → Nat → AccountStage → Prop
  | arrive {request : AccountRequest} (haccount : t.account = s.account) :
      Made malformed s t (.arrive request) s.fresh request.stage
  | proceed {op : Nat} {stage : AccountStage} (hbefore : s.stage? op = some stage)
      (hcall : stage.call? = none) (haccount : t.account = (stage.proceed s.account).1) :
      Made malformed s t (.proceed op) op (stage.proceed s.account).2
  | answer {op : Nat} {reply : ApiReply} {stage : AccountStage}
      (hbefore : s.stage? op = some stage) (hcall : stage.call?.isSome)
      (haccount : t.account = s.account) :
      Made malformed s t (.answer op reply) op (stage.answered malformed reply)

/-- Every move leads one operation to another stage and leaves the others where they are. -/
theorem made_of_move? (hs : s.Fresh) (h : s.move? malformed m = some t) :
    t.Fresh ∧ ∃ op next, Made malformed s t m op next ∧
      ∀ op', t.stage? op' = if op' = op then next.underWay? else s.stage? op' := by
  cases m with
  | arrive request =>
    obtain rfl : s.arrive request = t := Option.some.inj h
    let entered : AccountSystem := { s with
      inFlight := s.inFlight ++ [(s.fresh, request.stage)], fresh := s.fresh + 1 }
    have hnone : s.inFlight.lookup s.fresh = none := by
      cases hstage : s.inFlight.lookup s.fresh with
      | none => rfl
      | some stage => exact absurd (hs hstage) (Nat.lt_irrefl _)
    have hentered : ∀ op', entered.stage? op' =
        if op' = s.fresh then some request.stage else s.stage? op' :=
      InFlight.lookup_append_fresh hnone request.stage
    have hself : entered.stage? s.fresh = some request.stage := by rw [hentered, if_pos rfl]
    have hafter : ∀ op', (s.arrive request).stage? op' =
        if op' = s.fresh then request.stage.underWay? else s.stage? op' := by
      intro op'
      rw [show s.arrive request = entered.moved s.fresh request.stage from rfl,
        stage?_moved hself, hentered]
      split <;> rfl
    refine ⟨?_, s.fresh, request.stage, .arrive (moved_account _ _ _), hafter⟩
    intro op' stage hstage
    have hfresh : (s.arrive request).fresh = s.fresh + 1 := moved_fresh _ _ _
    rw [hafter] at hstage
    rw [hfresh]
    split at hstage
    · omega
    · have hlt := hs hstage
      omega
  | proceed op =>
    simp only [move?, proceed?] at h
    split at h
    · cases h
    · next stage hstage =>
      split at h
      · cases h
      · next hcall =>
        let changed : AccountSystem := { s with account := (stage.proceed s.account).1 }
        obtain rfl : changed.moved op (stage.proceed s.account).2 = t := Option.some.inj h
        have hbefore : changed.stage? op = some stage := hstage
        have hchanged : changed.Fresh := hs
        exact ⟨hchanged.moved hbefore _, op, _, .proceed hstage hcall (moved_account _ _ _),
          stage?_moved hbefore _⟩
  | answer op reply =>
    simp only [move?, answer?] at h
    split at h
    · cases h
    · next stage hstage =>
      split at h
      · cases h
      · next call hcall =>
        obtain rfl : s.moved op (stage.answered malformed reply) = t := Option.some.inj h
        have hbefore : s.stage? op = some stage := hstage
        exact ⟨hs.moved hbefore _, op, _, .answer hstage (by simp [hcall]) (moved_account _ _ _),
          stage?_moved hbefore _⟩

theorem Run.fresh {account : Account} (h : Run malformed (start account) moves t) : t.Fresh :=
  h.invariant (P := fun _ t => t.Fresh) (fresh_start account)
    fun _ hfresh hmove => (made_of_move? hfresh hmove).1

end AccountSystem

end Jukebox
