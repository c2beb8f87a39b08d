import Jukebox.Proofs.Session.Cookie
import Jukebox.Proofs.Session.Writers

/-!
# Logins that leave an empty cookie

A login succeeds if the last answer of the catalog has brought some text as a cookie, and what is
kept of the text is its normal form.  A text that says nothing but attributes is not empty, but its
normal form is: so a login may succeed and leave the session without a cookie
(`Account.login_leaves_nothing_iff`).
-/

namespace Jukebox

namespace Account

variable {answers : Answers} {a : Account} {request : AccountRequest} {asked : List ApiCall}
  {cookie : String} {mode : LoginMode} {outcome : AccountOutcome}

/-- The last answer of the catalog has brought this text as a cookie. -/
def Brought (answers : Answers) (asked : List ApiCall) (raw : String) : Prop :=
  ∃ earlier call status, asked = earlier ++ [call] ∧
    call.reply (answers earlier call) = .status (.ok status) ∧ status.cookie = some raw

theorem Earned.brought (h : Earned answers a request asked cookie mode outcome)
    (hlogin : outcome = .confirmed ∨ outcome = .loggedIn) :
    ∃ raw, Brought answers asked raw ∧ raw ≠ "" ∧ cookie = Cookie.normalize raw := by
  cases h with
  | @confirmed key raw limit earlier status hanswer hcode hcookie hraw =>
    exact ⟨raw, ⟨earlier, .qrCheck key, status, rfl, congrArg ApiReply.status hanswer, hcookie⟩,
      hraw, rfl⟩
  | @loggedIn phone code raw earlier status hanswer hcode hcookie hraw =>
    exact ⟨raw, ⟨earlier, .loginCellphone phone code, status, rfl,
      congrArg ApiReply.status hanswer, hcookie⟩, hraw, rfl⟩
  | refreshed => rcases hlogin with h | h <;> cases h

/-- A login that succeeds has been brought a text that is not empty, and leaves its normal form as
the cookie of the session and of the settings.  The cookie is empty, without any pair of a name and
a value, exactly if the text says nothing. -/
theorem login_leaves_nothing_iff (malformed : String) (answers : Answers) (a : Account)
    (asked : List ApiCall) (request : AccountRequest)
    (h : (a.serve malformed answers asked request).result = .ok .confirmed ∨
      (a.serve malformed answers asked request).result = .ok .loggedIn) :
    let run := a.serve malformed answers asked request
    ∃ raw, Brought answers run.calls raw ∧ raw ≠ "" ∧
      run.account.session.cookie = Cookie.normalize raw ∧
      run.account.config.current.cookie = run.account.session.cookie ∧
      (run.account.session.cookie = "" ↔ Cookie.SaysNothing raw) ∧
      (Cookie.parse run.account.session.cookie = [] ↔ Cookie.SaysNothing raw) := by
  intro run
  obtain ⟨hsettled, -, -⟩ := served malformed answers a asked request
  obtain ⟨outcome, hlogin, hresult⟩ : ∃ outcome : AccountOutcome,
      (outcome = .confirmed ∨ outcome = .loggedIn) ∧ run.result = .ok outcome := by
    rcases h with h | h
    · exact ⟨.confirmed, .inl rfl, h⟩
    · exact ⟨.loggedIn, .inr rfl, h⟩
  rw [hresult] at hsettled
  cases hsettled with
  | kept hresult => rcases hlogin with rfl | rfl <;> simp at hresult
  | wrote hearned hcookie hmode hkept =>
    obtain ⟨raw, hbrought, hraw, rfl⟩ := hearned.brought hlogin
    refine ⟨raw, hbrought, hraw, hcookie, hkept.trans hcookie.symm, ?_, ?_⟩
    · rw [hcookie, Cookie.normalize_eq_empty_iff]
    · rw [hcookie, Cookie.parse_normalize, Cookie.parse_eq_nil_iff]

/-- The picture is confirmed with a path and nothing else for a cookie.  The login succeeds, and the
session has lost the cookie that it had. -/
theorem login_leaves_nothing_iff_of_path :
    let answers : Answers := fun _ call =>
      match call with
      | .qrCheck _ => .ok ⟨803, none, some "Path=/"⟩
      | .refresh _ => .ok none
      | .qrKey | .qrImage _ | .sendCaptcha _ | .verifyCaptcha _ _ | .loginCellphone _ _ =>
        .error .emptyQueue
    let a : Account := ⟨⟨[(cookieHeader, "old=1")], .password, 30⟩, ⟨[], Config.standard⟩, .empty⟩
    let run := a.serve "" answers [] (.waitQr "key" 120)
    a.session.cookie = "old=1" ∧ run.result = .ok .confirmed ∧ run.account.session.cookie = "" := by
  intro answers a run
  have hresult : run.result = .ok .confirmed := by decide +kernel
  have hcalls : run.calls = [] ++ [.qrCheck "key"] := by decide +kernel
  obtain ⟨raw, ⟨earlier, call, status, hasked, hreply, hcookie⟩, -, -, -, hempty, -⟩ :=
    login_leaves_nothing_iff "" answers a [] (.waitQr "key" 120) (.inl hresult)
  obtain ⟨rfl, heq⟩ := List.append_inj' (hcalls.symm.trans hasked) rfl
  obtain rfl : ApiCall.qrCheck "key" = call := by simpa using heq
  obtain rfl : (⟨803, none, some "Path=/"⟩ : ApiStatus) = status := by
    simpa [ApiCall.reply, answers] using hreply
  obtain rfl : "Path=/" = raw := Option.some.inj hcookie
  have hnothing : Cookie.SaysNothing "Path=/" :=
    ⟨[("Path", "/")], Cookie.tells_iff.mpr (by decide +kernel), by decide⟩
  exact ⟨by decide, hresult, hempty.mpr hnothing⟩

end Account

end Jukebox
