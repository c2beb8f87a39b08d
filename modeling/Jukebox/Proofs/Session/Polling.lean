import Mathlib.Data.Nat.Find
import Jukebox.Proofs.Session.Alone
import Jukebox.Span

/-!
# Waiting for a picture to be confirmed

A wait asks about a picture again and again, and rests after each answer that decides nothing.  The
first answer that decides ends the wait, and how it ends hangs on that answer alone; where none of
the answers decides, the wait gives up after the rest behind the last of them
(`Account.first_decision_ends_wait`).
-/

namespace Jukebox

/-- How long a run has rested in all. -/
def AccountRun.waited (run : AccountRun) (interval : Span) : Span :=
  ⟨run.rests * interval.nanoseconds⟩

/-- An answer about a picture that decides: the picture is too old, or it was confirmed. -/
def Decisive (answer : Except Error ApiStatus) : Prop :=
  ∃ status, answer = .ok status ∧ (status.code = 800 ∨ status.code = 803)

/-- How a wait ends with its answer number `attempt`, if that one decides. -/
structure DecidedBy (status : ApiStatus) (attempt : Nat) (result : Except Error AccountOutcome) :
    Prop where
  expired : status.code = 800 → result = .error (.loginTimeout attempt)
  confirmed : status.code = 803 → ∀ cookie, status.cookie = some cookie → cookie ≠ "" →
    result = .ok .confirmed
  withoutCookie : status.code = 803 → (status.cookie = none ∨ status.cookie = some "") →
    result = .error (.login "el API no devolvió cookie")

namespace AccountStage

variable {key : String} {attempt limit : Nat} {status : ApiStatus}

theorem afterCheck_of_not_decisive {answer : Except Error ApiStatus} (h : ¬ Decisive answer) :
    afterCheck key attempt limit answer = .rest key attempt limit := by
  cases answer with
  | error e => rfl
  | ok status =>
    have hexpired : status.code ≠ ApiStatus.qrExpired :=
      fun hcode => h ⟨status, rfl, .inl hcode⟩
    have hconfirmed : status.code ≠ ApiStatus.qrConfirmed :=
      fun hcode => h ⟨status, rfl, .inr hcode⟩
    rw [afterCheck, if_neg hconfirmed, if_neg hexpired]

/-- After an answer that decides, the wait has ended or is about to take a cookie. -/
theorem afterCheck_of_decisive (key : String) (attempt limit : Nat)
    (h : status.code = 800 ∨ status.code = 803) :
    (∃ result, afterCheck key attempt limit (.ok status) = .finished result ∧
      DecidedBy status attempt result) ∨
    (∃ cookie, afterCheck key attempt limit (.ok status) = .takeCookie cookie .qr .confirmed ∧
      DecidedBy status attempt (.ok .confirmed)) := by
  rcases h with hcode | hcode
  · refine .inl ⟨.error (.loginTimeout attempt), ?_, fun _ => rfl, ?_, ?_⟩
    · simp [afterCheck, hcode, ApiStatus.qrConfirmed, ApiStatus.qrExpired]
    · simp [hcode]
    · simp [hcode]
  · cases husable : status.usableCookie? with
    | none =>
      refine .inl ⟨.error (.login "el API no devolvió cookie"), ?_, ?_, ?_, fun _ _ => rfl⟩
      · simp [afterCheck, hcode, ApiStatus.qrConfirmed, husable]
      · simp [hcode]
      · intro _ cookie hcookie hne
        simp [ApiStatus.usableCookie?, hcookie, hne] at husable
    | some cookie =>
      refine .inr ⟨cookie, ?_, ?_, fun _ _ _ _ => rfl, ?_⟩
      · simp [afterCheck, hcode, ApiStatus.qrConfirmed, husable]
      · simp [hcode]
      · rintro _ (hcookie | hcookie) <;> simp [ApiStatus.usableCookie?, hcookie] at husable

end AccountStage

namespace Account

variable {malformed : String} {answers : Answers} {a account : Account}
  {asked calls : List ApiCall} {key : String} {fuel rests attempt limit n : Nat}

/-- The answer to one more question about a picture, after `n` of them. -/
def checkReply (answers : Answers) (asked : List ApiCall) (key : String) (n : Nat) :
    Except Error ApiStatus :=
  answers (asked ++ List.replicate n (.qrCheck key)) (.qrCheck key)

/-- Run on from a stage with a catalog that answers. -/
abbrev runOn (malformed : String) (answers : Answers) (fuel : Nat) (account : Account)
    (calls : List ApiCall) (rests : Nat) (stage : AccountStage) : AccountRun :=
  runFor malformed (fun calls call => call.reply (answers calls call)) fuel account calls rests
    stage

/-! ## One question -/

theorem runOn_awaitCheck :
    runOn malformed answers (fuel + 1) account calls rests (.awaitCheck key attempt limit) =
      runOn malformed answers fuel account (calls ++ [.qrCheck key]) rests
        (.afterCheck key attempt limit (answers calls (.qrCheck key))) :=
  rfl

/-- After an answer that decides nothing the wait rests once and asks again. -/
theorem runOn_of_not_decisive (h : ¬ Decisive (answers calls (.qrCheck key)))
    (hlimit : attempt < limit) :
    runOn malformed answers (fuel + 2) account calls rests (.awaitCheck key attempt limit) =
      runOn malformed answers fuel account (calls ++ [.qrCheck key]) (rests + 1)
        (.awaitCheck key (attempt + 1) limit) := by
  rw [runOn_awaitCheck, AccountStage.afterCheck_of_not_decisive h]
  simp only [runOn, runFor, AccountStage.call?, AccountStage.proceed, if_pos hlimit]

/-- After the last answer that it may ask for the wait rests once more and gives up. -/
theorem runOn_of_last (h : ¬ Decisive (answers calls (.qrCheck key))) :
    runOn malformed answers (fuel + 2) account calls rests (.awaitCheck key limit limit) =
      ⟨account, calls ++ [.qrCheck key], rests + 1, .error (.loginTimeout limit)⟩ := by
  rw [runOn_awaitCheck, AccountStage.afterCheck_of_not_decisive h]
  simp only [runOn, runFor, AccountStage.call?, AccountStage.proceed,
    if_neg (Nat.lt_irrefl limit)]

theorem runOn_takeCookie (raw : String) (mode : LoginMode) (outcome : AccountOutcome) :
    ∃ last, runOn malformed answers (fuel + 4) account calls rests
      (.takeCookie raw mode outcome) = ⟨last, calls, rests, .ok outcome⟩ := by
  simp only [runOn, runFor, AccountStage.call?, AccountStage.proceed]
  exact ⟨_, rfl⟩

/-- An answer that decides ends the wait without another question, and without a rest. -/
theorem runOn_of_decisive {status : ApiStatus}
    (hreply : answers calls (.qrCheck key) = (.ok status : Except Error ApiStatus))
    (hcode : status.code = 800 ∨ status.code = 803) :
    ∃ last result, DecidedBy status attempt result ∧
      runOn malformed answers (fuel + 5) account calls rests (.awaitCheck key attempt limit) =
        ⟨last, calls ++ [.qrCheck key], rests, result⟩ := by
  rw [runOn_awaitCheck, hreply]
  rcases AccountStage.afterCheck_of_decisive key attempt limit hcode with
    ⟨result, hstage, hresult⟩ | ⟨cookie, hstage, hresult⟩
  · exact ⟨account, result, hresult, by rw [hstage, runOn, runFor]⟩
  · rw [hstage]
    obtain ⟨last, hrun⟩ : ∃ last, runOn malformed answers (fuel + 4) account
        (calls ++ [.qrCheck key]) rests (.takeCookie cookie .qr .confirmed) =
        ⟨last, calls ++ [.qrCheck key], rests, .ok .confirmed⟩ :=
      runOn_takeCookie cookie .qr .confirmed
    exact ⟨last, .ok .confirmed, hresult, hrun⟩

/-! ## One question after another -/

/-- While no answer decides, the wait has asked once and rested once for each of them. -/
theorem serve_waitQr_of_not_decisive (hlimit : n < limit)
    (h : ∀ i < n, ¬ Decisive (checkReply answers asked key i)) :
    a.serve malformed answers asked (.waitQr key limit) =
      runOn malformed answers (6 + 2 * (limit - (n + 1))) a
        (asked ++ List.replicate n (.qrCheck key)) n (.awaitCheck key (n + 1) limit) := by
  induction n with
  | zero =>
    have hne : limit ≠ 0 := Nat.ne_of_gt hlimit
    simp only [serve, run, AccountRequest.stage, waitQr, if_neg hne, AccountStage.weight,
      List.replicate_zero, List.append_nil, runOn]
  | succ n ih =>
    have hbefore := ih (by omega) fun i hi => h i (by omega)
    have hfuel : 6 + 2 * (limit - (n + 1)) = 6 + 2 * (limit - (n + 1 + 1)) + 2 := by omega
    rw [hbefore, hfuel, runOn_of_not_decisive (h n (Nat.lt_succ_self n)) hlimit,
      List.append_assoc, List.replicate_succ']

/-- The first answer that decides is the last one that is asked for. -/
theorem serve_waitQr_of_first {status : ApiStatus} (hlimit : n < limit)
    (hreply : checkReply answers asked key n = .ok status)
    (hcode : status.code = 800 ∨ status.code = 803)
    (h : ∀ i < n, ¬ Decisive (checkReply answers asked key i)) :
    ∃ last result, DecidedBy status (n + 1) result ∧
      a.serve malformed answers asked (.waitQr key limit) =
        ⟨last, asked ++ List.replicate (n + 1) (.qrCheck key), n, result⟩ := by
  have hfuel : 6 + 2 * (limit - (n + 1)) = 1 + 2 * (limit - (n + 1)) + 5 := by omega
  rw [serve_waitQr_of_not_decisive hlimit h, hfuel, List.replicate_succ', ← List.append_assoc]
  exact runOn_of_decisive hreply hcode

/-- Where no answer decides, all are asked for. -/
theorem serve_waitQr_of_none (h : ∀ i < limit, ¬ Decisive (checkReply answers asked key i)) :
    a.serve malformed answers asked (.waitQr key limit) =
      ⟨a, asked ++ List.replicate limit (.qrCheck key), limit, .error (.loginTimeout limit)⟩ := by
  cases limit with
  | zero =>
    rw [List.replicate_zero, List.append_nil]
    rfl
  | succ last =>
    have hbefore := fun i hi => h i (Nat.lt_succ_of_lt hi)
    rw [serve_waitQr_of_not_decisive (Nat.lt_succ_self last) hbefore, Nat.sub_self,
      runOn_of_last (h last (Nat.lt_succ_self last)), List.append_assoc, List.replicate_succ']

/-- A wait ends with the first answer that decides.  If that is the answer after `n` others, the
wait has asked `n + 1` times and rested `n` times, and ends as the answer says; if none of the
answers that it may ask for decides, it has rested after each of them and gives up. -/
theorem first_decision_ends_wait (malformed : String) (answers : Answers) (a : Account)
    (asked : List ApiCall) (key : String) (limit : Nat) (interval : Span) :
    let run := a.serve malformed answers asked (.waitQr key limit)
    let reply := checkReply answers asked key
    (∃ n < limit, ∃ status, reply n = .ok status ∧ (status.code = 800 ∨ status.code = 803) ∧
      (∀ i < n, ¬ Decisive (reply i)) ∧
      run.calls = asked ++ List.replicate (n + 1) (.qrCheck key) ∧
      run.waited interval = ⟨n * interval.nanoseconds⟩ ∧
      DecidedBy status (n + 1) run.result) ∨
    ((∀ i < limit, ¬ Decisive (reply i)) ∧
      run.calls = asked ++ List.replicate limit (.qrCheck key) ∧
      run.waited interval = ⟨limit * interval.nanoseconds⟩ ∧
      run.result = .error (.loginTimeout limit)) := by
  classical
  intro run reply
  by_cases hdecides : ∃ n, n < limit ∧ Decisive (reply n)
  · left
    obtain ⟨hlimit, status, hreply, hcode⟩ := Nat.find_spec hdecides
    have hbefore : ∀ i < Nat.find hdecides, ¬ Decisive (reply i) := fun i hi hdecisive =>
      Nat.find_min hdecides hi ⟨Nat.lt_trans hi hlimit, hdecisive⟩
    obtain ⟨last, result, hresult, hrun⟩ : ∃ last result,
        DecidedBy status (Nat.find hdecides + 1) result ∧ run = ⟨last, _, _, result⟩ :=
      serve_waitQr_of_first hlimit hreply hcode hbefore
    rw [hrun]
    exact ⟨Nat.find hdecides, hlimit, status, hreply, hcode, hbefore, rfl, rfl, hresult⟩
  · right
    have hnone : ∀ i < limit, ¬ Decisive (reply i) := fun i hi hdecisive =>
      hdecides ⟨i, hi, hdecisive⟩
    have hrun : run = ⟨a, _, limit, _⟩ := serve_waitQr_of_none hnone
    rw [hrun]
    exact ⟨hnone, rfl, rfl, rfl⟩

end Account

end Jukebox
