import Jukebox.Session.System

/-!
# Logins and refreshes that run alone

A login or a refresh on which no other intrudes goes from its request to its end, whatever the
catalog answers.  `Account.Completes` is such a walk without a bound on its steps, and the bound
of `Account.run` is never reached (`Account.completes_run`): every step lowers the weight of the
stage.
-/

namespace Jukebox

/-- What the catalog may answer to a question. -/
def ApiCall.Answer : ApiCall → Type
  | .qrKey | .qrImage _ => Except Error String
  | .qrCheck _ | .sendCaptcha _ | .verifyCaptcha _ _ | .loginCellphone _ _ => Except Error ApiStatus
  | .refresh _ => Except Error (Option String)

/-- An answer to a question, as a reply. -/
def ApiCall.reply : (call : ApiCall) → call.Answer → ApiReply
  | .qrKey, answer | .qrImage _, answer => .text answer
  | .qrCheck _, answer | .sendCaptcha _, answer | .verifyCaptcha _ _, answer
  | .loginCellphone _ _, answer => .status answer
  | .refresh _, answer => .fragment answer

/-- A catalog answers a question, given those asked before it. -/
abbrev Answers := List ApiCall → (call : ApiCall) → call.Answer

namespace AccountStage

variable {account : Account} {stage : AccountStage} {call : ApiCall} {malformed : String}

/-- The request has ended. -/
def isFinished : AccountStage → Bool
  | .finished _ => true
  | _ => false

theorem weight_afterSuccess (next : AccountStage) (answer : Except Error ApiStatus) :
    (afterSuccess next answer).weight ≤ next.weight := by
  unfold afterSuccess
  split
  · exact Nat.zero_le _
  · split
    · exact Nat.le_refl _
    · exact Nat.zero_le _

theorem weight_afterLogin (answer : Except Error ApiStatus) : (afterLogin answer).weight ≤ 4 := by
  unfold afterLogin
  split
  · exact Nat.zero_le _
  · split
    · split
      · exact Nat.le_refl _
      · exact Nat.zero_le _
    · exact Nat.zero_le _

theorem weight_afterCheck (key : String) (attempt limit : Nat)
    (answer : Except Error ApiStatus) :
    (afterCheck key attempt limit answer).weight ≤ 5 + 2 * (limit - attempt) := by
  unfold afterCheck
  split
  · exact Nat.le_refl _
  · split
    · split
      · exact Nat.le_add_right_of_le (Nat.le_succ 4)
      · exact Nat.zero_le _
    · split
      · exact Nat.zero_le _
      · exact Nat.le_refl _

theorem weight_afterFragment (answer : Except Error (Option String)) :
    (afterFragment answer).weight ≤ 4 := by
  unfold afterFragment
  split
  · exact Nat.le_refl _
  · exact Nat.zero_le _
  · exact Nat.zero_le _

/-- An answer brings a request nearer to its end. -/
theorem weight_answered (hcall : stage.call? = some call) (answer : call.Answer) :
    (stage.answered malformed (call.reply answer)).weight < stage.weight := by
  cases stage with
  | awaitFragment headers =>
    cases hcall
    exact Nat.lt_succ_of_le (weight_afterFragment answer)
  | awaitKey =>
    cases hcall
    cases answer with
    | error e => exact Nat.two_pos
    | ok key => exact Nat.one_lt_two
  | awaitImage key =>
    cases hcall
    cases answer with
    | error e => exact Nat.one_pos
    | ok link =>
      simp only [ApiCall.reply, answered]
      split <;> exact Nat.one_pos
  | awaitCheck key attempt limit =>
    cases hcall
    have hle := weight_afterCheck key attempt limit answer
    have hweight : (awaitCheck key attempt limit).weight = 5 + 2 * (limit - attempt) + 1 := by
      simp only [weight]
      omega
    rw [hweight]
    exact Nat.lt_succ_of_le hle
  | awaitCaptcha phone =>
    cases hcall
    exact Nat.lt_succ_of_le (weight_afterSuccess (.finished (.ok .codeSent)) answer)
  | awaitVerification phone code =>
    cases hcall
    exact Nat.lt_succ_of_le (weight_afterSuccess (.awaitLogin phone code) answer)
  | awaitLogin phone code =>
    cases hcall
    exact Nat.lt_succ_of_le (weight_afterLogin answer)
  | _ => cases hcall

/-- A request that waits for no answer comes nearer to its end, unless it has ended. -/
theorem weight_proceed (hcall : stage.call? = none) (hfinished : stage.isFinished = false) :
    (stage.proceed account).2.weight < stage.weight := by
  cases stage with
  | beginRefresh =>
    simp only [proceed]
    split
    · exact Nat.zero_lt_succ _
    · exact Nat.lt_succ_self _
  | rest key attempt limit =>
    simp only [proceed]
    split
    · simp only [weight]
      omega
    · exact Nat.lt_add_right _ (Nat.zero_lt_succ 4)
  | finished result => cases hfinished
  | takeCookie raw mode outcome => exact Nat.lt_succ_self _
  | layFragment fragment => exact Nat.lt_succ_self _
  | keepCookie cookie qr outcome => exact Nat.lt_succ_self _
  | copySettings outcome => exact Nat.lt_succ_self _
  | writeSettings copy outcome => exact Nat.lt_succ_self _
  | _ => cases hcall

end AccountStage

namespace Account

/-- From a stage a request that runs alone comes to this account, with these questions asked, and
ends in this way. -/
inductive Completes (malformed : String) (answers : Answers) :
    Account → List ApiCall → AccountStage → Account → List ApiCall →
      Except Error AccountOutcome → Prop
  | finished (account : Account) (calls : List ApiCall) (result : Except Error AccountOutcome) :
      Completes malformed answers account calls (.finished result) account calls result
  | asks {account last : Account} {calls all : List ApiCall} {stage : AccountStage}
      {result : Except Error AccountOutcome} {call : ApiCall} (hcall : stage.call? = some call)
      (rest : Completes malformed answers account (calls ++ [call])
        (stage.answered malformed (call.reply (answers calls call))) last all result) :
      Completes malformed answers account calls stage last all result
  | proceeds {account last : Account} {calls all : List ApiCall} {stage : AccountStage}
      {result : Except Error AccountOutcome} (hcall : stage.call? = none)
      (hfinished : stage.isFinished = false)
      (rest : Completes malformed answers (stage.proceed account).1 calls
        (stage.proceed account).2 last all result) :
      Completes malformed answers account calls stage last all result

/-- Serve a request while nothing else runs; `calls` are the questions asked before. -/
def serve (malformed : String) (answers : Answers) (account : Account) (calls : List ApiCall)
    (request : AccountRequest) : AccountRun :=
  account.run malformed (fun calls call => call.reply (answers calls call)) calls request.stage

variable {malformed : String} {answers : Answers} {account : Account} {calls : List ApiCall}

theorem runFor_of_call {respond : List ApiCall → ApiCall → ApiReply} {stage : AccountStage}
    {call : ApiCall} {fuel rests : Nat} (hne : ∀ result, stage ≠ .finished result)
    (hcall : stage.call? = some call) :
    runFor malformed respond (fuel + 1) account calls rests stage =
      runFor malformed respond fuel account (calls ++ [call]) rests
        (stage.answered malformed (respond calls call)) := by
  cases stage with
  | finished result => exact absurd rfl (hne result)
  | _ => simp only [runFor, hcall]

theorem runFor_of_no_call {respond : List ApiCall → ApiCall → ApiReply} {stage : AccountStage}
    {fuel rests : Nat} (hne : ∀ result, stage ≠ .finished result) (hcall : stage.call? = none) :
    ∃ rests', runFor malformed respond (fuel + 1) account calls rests stage =
      runFor malformed respond fuel (stage.proceed account).1 calls rests'
        (stage.proceed account).2 := by
  cases stage with
  | finished result => exact absurd rfl (hne result)
  | rest key attempt limit => exact ⟨rests + 1, by simp only [runFor, hcall]⟩
  | _ => exact ⟨rests, by simp only [runFor, hcall]⟩

theorem completes_runFor {fuel : Nat} (rests : Nat) {stage : AccountStage}
    (h : stage.weight ≤ fuel) :
    let run := runFor malformed (fun calls call => call.reply (answers calls call)) fuel account
      calls rests stage
    Completes malformed answers account calls stage run.account run.calls run.result := by
  induction fuel generalizing account calls rests stage with
  | zero =>
    cases stage with
    | finished result => exact .finished account calls result
    | rest key attempt limit =>
      simp only [AccountStage.weight] at h
      omega
    | awaitCheck key attempt limit =>
      simp only [AccountStage.weight] at h
      omega
    | _ => cases h
  | succ fuel ih =>
    cases hfinished : stage.isFinished with
    | true =>
      cases stage with
      | finished result => exact .finished account calls result
      | _ => cases hfinished
    | false =>
      have hne : ∀ result, stage ≠ .finished result := by
        rintro result rfl
        cases hfinished
      cases hcall : stage.call? with
      | some call =>
        have hlt := @AccountStage.weight_answered stage call malformed hcall (answers calls call)
        have hrest := @ih account (calls ++ [call]) rests
          (stage.answered malformed (call.reply (answers calls call))) (by omega)
        rw [runFor_of_call hne hcall]
        exact .asks hcall hrest
      | none =>
        have hlt := @AccountStage.weight_proceed account stage hcall hfinished
        obtain ⟨rests', hrun⟩ := runFor_of_no_call hne hcall
        rw [hrun]
        exact .proceeds hcall hfinished (ih rests' (by omega))

/-- A request that runs alone comes to its end. -/
theorem completes_serve (malformed : String) (answers : Answers) (account : Account)
    (calls : List ApiCall) (request : AccountRequest) :
    Completes malformed answers account calls request.stage
      (account.serve malformed answers calls request).account
      (account.serve malformed answers calls request).calls
      (account.serve malformed answers calls request).result :=
  completes_runFor 0 (Nat.le_refl _)

end Account

end Jukebox
