import Mathlib.Data.List.Induction
import Jukebox.Queue.Basic

/-!
# The history beside a stack

Tracks are remembered and taken back in any order.  The queue forgets the oldest of more than
fifty, and a stack beside it forgets nothing.  After some tracks were forgotten and others taken
back, the length of the history does not tell any more that something is missing under it, so what
is carried through the calls is how many tracks are remembered: the history is that many tracks
from the top of the stack (`HistoryCall.history_top_of_stack`).
-/

namespace Jukebox

/-- What is done to the played tracks. -/
inductive HistoryCall where
  | remember (track : Track)
  | takeBack
deriving DecidableEq

theorem Queue.history_of_takeBack? {q rest : Queue} {track : Track}
    (h : q.takeBack? = some (track, rest)) : q.history = track :: rest.history := by
  unfold takeBack? at h
  split at h
  · cases h
  · next hhistory =>
    cases h
    exact hhistory

namespace HistoryCall

/-- The queue after a call; it stays as it is if there is nothing to take back. -/
def onQueue (q : Queue) : HistoryCall → Queue
  | remember track => q.remember track
  | takeBack => q.takeBack?.elim q Prod.snd

/-- A stack that forgets nothing, after a call. -/
def onStack (stack : List Track) : HistoryCall → List Track
  | remember track => track :: stack
  | takeBack => stack.tail

/-- How many tracks are remembered after a call, if so many were before. -/
def onCount (n : Nat) : HistoryCall → Nat
  | remember _ => min Queue.historyLimit (n + 1)
  | takeBack => n - 1

variable {stack : List Track} {calls : List HistoryCall} {n : Nat}

/-! ## One call -/

/-- If the history is so many tracks from the top of the stack, a call keeps it so. -/
theorem onQueue_take (items stack : List Track) (n : Nat) (call : HistoryCall) :
    onQueue ⟨items, stack.take n⟩ call = ⟨items, (onStack stack call).take (onCount n call)⟩ := by
  cases call with
  | remember track =>
    have htake : (track :: stack.take n).take Queue.historyLimit =
        (track :: stack).take (min Queue.historyLimit (n + 1)) := by
      rw [← List.take_succ_cons, List.take_take]
    exact congrArg (Queue.mk items) htake
  | takeBack =>
    cases n with
    | zero => rfl
    | succ n =>
      cases stack with
      | nil => simp [onQueue, onStack, Queue.takeBack?]
      | cons track rest => rfl

theorem onCount_le_limit (h : n ≤ Queue.historyLimit) (call : HistoryCall) :
    onCount n call ≤ Queue.historyLimit := by
  cases call with
  | remember track => exact Nat.min_le_left _ _
  | takeBack => exact Nat.le_trans (Nat.sub_le n 1) h

theorem onCount_le_length (h : n ≤ stack.length) (call : HistoryCall) :
    onCount n call ≤ (onStack stack call).length := by
  cases call with
  | remember track =>
    exact Nat.le_trans (Nat.min_le_right _ _) (Nat.succ_le_succ h)
  | takeBack =>
    rw [onCount, onStack, List.length_tail]
    exact Nat.sub_le_sub_right h 1

/-! ## Many calls -/

theorem foldl_onQueue_take (items stack : List Track) (n : Nat) (calls : List HistoryCall) :
    calls.foldl onQueue ⟨items, stack.take n⟩ =
      ⟨items, (calls.foldl onStack stack).take (calls.foldl onCount n)⟩ := by
  induction calls generalizing stack n with
  | nil => rfl
  | cons call calls ih => rw [List.foldl_cons, onQueue_take, ih, List.foldl_cons, List.foldl_cons]

theorem foldl_onCount_le_limit (h : n ≤ Queue.historyLimit) (calls : List HistoryCall) :
    calls.foldl onCount n ≤ Queue.historyLimit :=
  List.foldlRecOn (motive := (· ≤ Queue.historyLimit)) calls onCount h
    fun _ hle call _ => onCount_le_limit hle call

theorem foldl_onCount_le_length (h : n ≤ stack.length) (calls : List HistoryCall) :
    calls.foldl onCount n ≤ (calls.foldl onStack stack).length :=
  List.foldl_rel (r := fun (n : Nat) (stack : List Track) => n ≤ stack.length) h
    fun call _ _ _ hle => onCount_le_length hle call

/-- As long as nothing is forgotten, all of the stack is remembered.  The induction takes off the
last call, because the condition on a call speaks of the calls before it. -/
theorem foldl_onCount_eq_length
    (h : ∀ before track, before ++ [remember track] <+: calls →
      before.foldl onCount 0 ≠ Queue.historyLimit) :
    calls.foldl onCount 0 = (calls.foldl onStack []).length := by
  induction calls using List.reverseRecOn with
  | nil => rfl
  | append_singleton calls call ih =>
    have hcalls : calls.foldl onCount 0 = (calls.foldl onStack []).length :=
      ih fun before track hbefore => h before track (hbefore.trans (List.prefix_append _ _))
    rw [List.foldl_append, List.foldl_append]
    cases call with
    | remember track =>
      have hfull : calls.foldl onCount 0 ≠ Queue.historyLimit := h calls track List.prefix_rfl
      have hroom : calls.foldl onCount 0 < Queue.historyLimit :=
        Nat.lt_of_le_of_ne (foldl_onCount_le_limit (Nat.zero_le _) calls) hfull
      calc onCount (calls.foldl onCount 0) (remember track)
          = calls.foldl onCount 0 + 1 := Nat.min_eq_right hroom
        _ = (onStack (calls.foldl onStack []) (remember track)).length := by
          rw [hcalls, onStack, List.length_cons]
    | takeBack =>
      calc onCount (calls.foldl onCount 0) takeBack
          = (calls.foldl onStack []).length - 1 := congrArg (· - 1) hcalls
        _ = (onStack (calls.foldl onStack []) takeBack).length := List.length_tail.symm

/-! ## From an empty history -/

/-- The queue after the calls, if nothing was played before. -/
theorem foldl_onQueue (items : List Track) (calls : List HistoryCall) :
    calls.foldl onQueue ⟨items, []⟩ =
      ⟨items, (calls.foldl onStack []).take (calls.foldl onCount 0)⟩ :=
  foldl_onQueue_take items [] 0 calls

theorem length_history_foldl (items : List Track) (calls : List HistoryCall) :
    (calls.foldl onQueue ⟨items, []⟩).history.length = calls.foldl onCount 0 := by
  rw [foldl_onQueue]
  exact List.length_take_of_le (foldl_onCount_le_length (Nat.zero_le _) calls)

/-- Tracks are remembered and taken back in any order, and nothing was played before.  Then the
history is the top of the stack that forgets nothing, and it holds as many tracks as are counted,
one more for each that is remembered up to the limit and one less for each that is taken back.  The
track that is taken back next is the one that the stack gives.  The two are equal as long as no
track is remembered while the history is full. -/
theorem history_top_of_stack (items : List Track) (calls : List HistoryCall) :
    let start : Queue := ⟨items, []⟩
    let q := calls.foldl onQueue start
    let stack := calls.foldl onStack []
    q.items = items ∧ q.history <+: stack ∧ q.history.length = calls.foldl onCount 0 ∧
      q.history.length ≤ Queue.historyLimit ∧
      (∀ track rest, q.takeBack? = some (track, rest) → stack.head? = some track) ∧
      ((∀ before track, before ++ [remember track] <+: calls →
          (before.foldl onQueue start).history.length ≠ Queue.historyLimit) →
        q.history = stack) := by
  intro start q stack
  have hq : q = ⟨items, stack.take (calls.foldl onCount 0)⟩ := foldl_onQueue items calls
  have hlength : q.history.length = calls.foldl onCount 0 := length_history_foldl items calls
  have htop : q.history <+: stack := by
    rw [hq]
    exact List.take_prefix _ _
  refine ⟨by rw [hq], htop, hlength, ?_, ?_, ?_⟩
  · rw [hlength]
    exact foldl_onCount_le_limit (Nat.zero_le _) calls
  · intro track rest hback
    obtain ⟨below, hbelow⟩ := htop
    rw [← hbelow, Queue.history_of_takeBack? hback, List.cons_append, List.head?_cons]
  · intro hroom
    have hcount : calls.foldl onCount 0 = stack.length := by
      refine foldl_onCount_eq_length fun before track hbefore => ?_
      rw [← length_history_foldl items before]
      exact hroom before track hbefore
    exact htop.eq_of_length (hlength.trans hcount)

/-- Fifty tracks are remembered and all of them are in the history.  One more pushes out the first,
which is still in the stack when the others were taken back and the history is empty. -/
theorem history_top_of_stack_of_fifty_one :
    let full := remember (.direct "first") :: List.replicate 49 (remember (.direct "later"))
    let start : Queue := ⟨[.remote "7"], []⟩
    (∀ before track, before ++ [remember track] <+: full →
        (before.foldl onQueue start).history.length ≠ Queue.historyLimit) ∧
      (full.foldl onQueue start).history = full.foldl onStack [] ∧
      (let calls := full ++ remember (.direct "later") :: List.replicate 50 takeBack
      (calls.foldl onQueue start).history.length = 0 ∧
        calls.foldl onStack [] = [.direct "first"]) := by
  intro full start
  have hroom : ∀ before track, before ++ [remember track] <+: full →
      (before.foldl onQueue start).history.length ≠ Queue.historyLimit := by
    have hparts : ∀ n < 50,
        ((full.take n).foldl onQueue start).history.length ≠ Queue.historyLimit := by
      decide +kernel
    intro before track hbefore
    have hshort : before.length + 1 ≤ 50 := by simpa [full] using hbefore.length_le
    have htake : before = full.take before.length :=
      List.prefix_iff_eq_take.mp ((List.prefix_append _ _).trans hbefore)
    rw [htake]
    exact hparts _ hshort
  obtain ⟨-, -, -, -, -, hequal⟩ := history_top_of_stack [.remote "7"] full
  refine ⟨hroom, hequal hroom, ?_⟩
  intro calls
  obtain ⟨-, -, hlength, -⟩ := history_top_of_stack [.remote "7"] calls
  exact ⟨hlength.trans (by decide +kernel), by decide +kernel⟩

end HistoryCall

end Jukebox
