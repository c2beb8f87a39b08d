import Mathlib.Data.String.Basic
import Jukebox.Proofs.Session.Agreement
import Jukebox.Proofs.Session.Alone
import Jukebox.Proofs.Session.Pairs

/-!
# What a login or a refresh may write

Requests are served one after the other.  Each of them writes the cookie and the kind of login
into the session and into the settings in memory, or it leaves both alone; it writes exactly when
it ends in a success, and then the last answer of the catalog has earned it
(`Account.writes_both_or_neither`).  Whether the settings can be saved makes no difference to the
settings in memory.
-/

namespace Jukebox

/-- Four ASCII digits. -/
def IsCode (code : String) : Prop :=
  code.toList.length = 4 ∧ ∀ c ∈ code.toList, Text.isAsciiDigit c = true

theorem utf8Len_of_digits {cs : List Char} (h : ∀ c ∈ cs, Text.isAsciiDigit c = true) :
    String.utf8Len cs = cs.length := by
  induction cs with
  | nil => rfl
  | cons c cs ih =>
    have hdigit : c ≤ '9' := by
      have hc := h c List.mem_cons_self
      simp only [Text.isAsciiDigit, Bool.and_eq_true, decide_eq_true_eq] at hc
      exact hc.2
    have hsize : c.utf8Size = 1 := by
      have hle : c.val ≤ 127 := UInt32.le_trans hdigit (by decide)
      simp [Char.utf8Size, hle]
    rw [String.utf8Len_cons, ih fun d hd => h d (List.mem_cons_of_mem _ hd), hsize,
      List.length_cons]

theorem isCode_of_isDigits {code : String} (hsize : code.utf8ByteSize = 4)
    (hdigits : Account.isDigits code = true) : IsCode code := by
  have hall : ∀ c ∈ code.toList, Text.isAsciiDigit c = true := by
    simpa [Account.isDigits] using hdigits
  refine ⟨?_, hall⟩
  rw [← utf8Len_of_digits hall, String.utf8Len_toList, hsize]

namespace Account

variable {answers : Answers} {malformed : String} {a b c now last : Account}
  {request : AccountRequest} {calls asked all : List ApiCall} {call : ApiCall}
  {stage : AccountStage} {cookie : String} {mode : LoginMode} {outcome : AccountOutcome}
  {result : Except Error AccountOutcome}

/-! ## What a request asks, writes and leaves -/

/-- Nothing differs but the cookie and the kind of login, in the session and in the settings. -/
structure SameBeyond (a b : Account) : Prop where
  headers : ∀ name, name ≠ cookieHeader →
    b.session.headers.lookup name = a.session.headers.lookup name
  refreshMinutes : b.session.refreshMinutes = a.session.refreshMinutes
  path : b.config.path = a.config.path
  settingsHeaders : ∀ name, name ≠ cookieHeader →
    b.config.current.header.lookup name = a.config.current.header.lookup name
  settings : { b.config.current with header := [], isQrLogin := false } =
    { a.config.current with header := [], isQrLogin := false }

/-- With the questions asked so far the catalog has just confirmed the code of the phone. -/
def Verified (answers : Answers) (phone code : String) (asked : List ApiCall) : Prop :=
  ∃ earlier status, asked = earlier ++ [.verifyCaptcha phone code] ∧
    answers earlier (.verifyCaptcha phone code) = (.ok status : Except Error ApiStatus) ∧
    status.code = ApiStatus.success

/-- A question that a request may ask after those asked so far. -/
def MayAsk (answers : Answers) (a : Account) (request : AccountRequest) (asked : List ApiCall) :
    ApiCall → Prop
  | .verifyCaptcha phone code => request = .sms phone (some code) ∧ IsCode code
  | .loginCellphone phone code =>
    request = .sms phone (some code) ∧ IsCode code ∧ Verified answers phone code asked
  | .refresh headers =>
    request = .refresh ∧ a.session.loginMode = .password ∧ a.session.cookie ≠ "" ∧
      headers = a.session.headers
  | _ => True

/-- The last answer of the catalog has earned a request this cookie. -/
inductive Earned (answers : Answers) (a : Account) :
    AccountRequest → List ApiCall → String → LoginMode → AccountOutcome → Prop
  | confirmed {key raw : String} {limit : Nat} {earlier : List ApiCall} {status : ApiStatus}
      (hanswer : answers earlier (.qrCheck key) = (.ok status : Except Error ApiStatus))
      (hcode : status.code = ApiStatus.qrConfirmed) (hcookie : status.cookie = some raw)
      (hraw : raw ≠ "") :
      Earned answers a (.waitQr key limit) (earlier ++ [.qrCheck key]) (Cookie.normalize raw) .qr
        .confirmed
  | loggedIn {phone code raw : String} {earlier : List ApiCall} {status : ApiStatus}
      (hanswer : answers earlier (.loginCellphone phone code) =
        (.ok status : Except Error ApiStatus))
      (hcode : status.code = ApiStatus.success) (hcookie : status.cookie = some raw)
      (hraw : raw ≠ "") :
      Earned answers a (.sms phone (some code)) (earlier ++ [.loginCellphone phone code])
        (Cookie.normalize raw) .password .loggedIn
  | refreshed {fragment : String} {earlier : List ApiCall}
      (hmode : a.session.loginMode = .password)
      (hanswer : answers earlier (.refresh a.session.headers) =
        (.ok (some fragment) : Except Error (Option String))) :
      Earned answers a .refresh (earlier ++ [.refresh a.session.headers])
        (Cookie.merge a.session.cookie fragment) .password .refreshed

/-- How a request has ended, and what it has left in the session and in the settings. -/
inductive Settled (answers : Answers) (a : Account) (request : AccountRequest) (b : Account)
    (asked : List ApiCall) : Except Error AccountOutcome → Prop
  | wrote {cookie : String} {mode : LoginMode} {outcome : AccountOutcome}
      (hearned : Earned answers a request asked cookie mode outcome)
      (hcookie : b.session.cookie = cookie) (hmode : b.session.loginMode = mode)
      (hkept : b.config.current.cookie = cookie) (hqr : b.config.current.isQrLogin = mode.isQr) :
      Settled answers a request b asked (.ok outcome)
  | kept {result : Except Error AccountOutcome}
      (hresult : result ≠ .ok .confirmed ∧ result ≠ .ok .loggedIn ∧ result ≠ .ok .refreshed)
      (hsession : b.session = a.session) (hconfig : b.config = a.config) :
      Settled answers a request b asked result

/-- A request that was served, with the account before it and the questions asked before it. -/
structure Service where
  before : Account
  asked : List ApiCall
  request : AccountRequest
  run : AccountRun

/-- Serve requests one after the other. -/
def serveAll (malformed : String) (answers : Answers) :
    Account → List ApiCall → List AccountRequest → List Service
  | _, _, [] => []
  | account, calls, request :: more =>
    let run := account.serve malformed answers calls request
    ⟨account, calls, request, run⟩ :: serveAll malformed answers run.account run.calls more

theorem SameBeyond.refl (a : Account) : SameBeyond a a :=
  ⟨fun _ _ => rfl, rfl, rfl, fun _ _ => rfl, rfl⟩

theorem SameBeyond.trans (h : SameBeyond a b) (h' : SameBeyond b c) : SameBeyond a c where
  headers := fun name hname => (h'.headers name hname).trans (h.headers name hname)
  refreshMinutes := h'.refreshMinutes.trans h.refreshMinutes
  path := h'.path.trans h.path
  settingsHeaders := fun name hname =>
    (h'.settingsHeaders name hname).trans (h.settingsHeaders name hname)
  settings := h'.settings.trans h.settings

theorem SameBeyond.of_eq (hsession : b.session = a.session) (hconfig : b.config = a.config) :
    SameBeyond a b := by
  constructor
  · intro name _
    rw [hsession]
  · rw [hsession]
  · rw [hconfig]
  · intro name _
    rw [hconfig]
  · rw [hconfig]

/-! ## Step by step -/

/-- Nothing was written. -/
def Untouched (a now : Account) : Prop := now.session = a.session ∧ now.config = a.config

/-- The cookie and the kind of login are in the session. -/
def InSession (a now : Account) (cookie : String) (mode : LoginMode) : Prop :=
  now.session = { a.session.withCookie cookie with loginMode := mode }

/-- The cookie and the kind of login are in the settings. -/
def InSettings (a now : Account) (cookie : String) (mode : LoginMode) : Prop :=
  now.config = { a.config with current := a.config.current.withSession cookie mode.isQr }

/-- Where a request stands that was begun on the account `a`: what it has asked and been answered,
and what it has written. -/
def Stands (answers : Answers) (a : Account) (request : AccountRequest) (now : Account)
    (asked : List ApiCall) : AccountStage → Prop
  | .beginRefresh => Untouched a now ∧ request = .refresh
  | .awaitFragment headers => Untouched a now ∧ MayAsk answers a request asked (.refresh headers)
  | .awaitKey | .awaitImage _ | .awaitCaptcha _ => Untouched a now
  | .awaitCheck key _ _ | .rest key _ _ =>
    Untouched a now ∧ ∃ limit, request = .waitQr key limit
  | .awaitVerification phone code =>
    Untouched a now ∧ MayAsk answers a request asked (.verifyCaptcha phone code)
  | .awaitLogin phone code =>
    Untouched a now ∧ MayAsk answers a request asked (.loginCellphone phone code)
  | .takeCookie raw mode outcome =>
    Untouched a now ∧ Earned answers a request asked (Cookie.normalize raw) mode outcome
  | .layFragment fragment =>
    Untouched a now ∧ Earned answers a request asked (Cookie.merge a.session.cookie fragment)
      .password .refreshed
  | .keepCookie cookie qr outcome => now.config = a.config ∧ ∃ mode, qr = mode.isQr ∧
    InSession a now cookie mode ∧ Earned answers a request asked cookie mode outcome
  | .copySettings outcome | .writeSettings _ outcome => ∃ cookie mode,
    InSession a now cookie mode ∧ InSettings a now cookie mode ∧
      Earned answers a request asked cookie mode outcome
  | .finished result => Settled answers a request now asked result ∧ SameBeyond a now

theorem stands_finished_of_untouched (h : Untouched a now)
    (hresult : result ≠ .ok .confirmed ∧ result ≠ .ok .loggedIn ∧ result ≠ .ok .refreshed) :
    Stands answers a request now asked (.finished result) :=
  ⟨.kept hresult h.1 h.2, .of_eq h.1 h.2⟩

theorem stands_error_of_untouched (h : Untouched a now) (e : Error) :
    Stands answers a request now asked (.finished (.error e)) :=
  stands_finished_of_untouched h ⟨nofun, nofun, nofun⟩

/-- A request begins with nothing written. -/
theorem stands_begin (answers : Answers) (a : Account) (request : AccountRequest)
    (asked : List ApiCall) : Stands answers a request a asked request.stage := by
  have huntouched : Untouched a a := ⟨rfl, rfl⟩
  cases request with
  | refresh => exact ⟨huntouched, rfl⟩
  | startQr => exact huntouched
  | waitQr key limit =>
    simp only [AccountRequest.stage, waitQr]
    split
    · exact stands_error_of_untouched huntouched _
    · exact ⟨huntouched, limit, rfl⟩
  | sms phone code =>
    simp only [AccountRequest.stage, sms]
    split
    · exact stands_error_of_untouched huntouched _
    · cases code with
      | none => exact huntouched
      | some code =>
        dsimp only
        split
        · exact stands_error_of_untouched huntouched _
        · next hcode =>
          simp only [Bool.or_eq_true, bne_iff_ne, Bool.not_eq_true', not_or, not_not,
            Bool.not_eq_false] at hcode
          exact ⟨huntouched, rfl, isCode_of_isDigits hcode.1 hcode.2⟩

/-- A request only asks what it may. -/
theorem Stands.mayAsk (h : Stands answers a request now asked stage)
    (hcall : stage.call? = some call) : MayAsk answers a request asked call := by
  cases stage with
  | awaitFragment headers =>
    cases hcall
    exact h.2
  | awaitVerification phone code =>
    cases hcall
    exact h.2
  | awaitLogin phone code =>
    cases hcall
    exact h.2
  | awaitKey => cases hcall; trivial
  | awaitImage key => cases hcall; trivial
  | awaitCheck key attempt limit => cases hcall; trivial
  | awaitCaptcha phone => cases hcall; trivial
  | _ => cases hcall

theorem usableCookie?_eq_some {status : ApiStatus} {raw : String}
    (h : status.usableCookie? = some raw) : status.cookie = some raw ∧ raw ≠ "" := by
  obtain ⟨hcookie, hraw⟩ := Option.filter_eq_some_iff.mp h
  exact ⟨hcookie, by simpa using hraw⟩

theorem stands_afterSuccess {next : AccountStage} {answer : Except Error ApiStatus}
    (h : Untouched a now)
    (hnext : ∀ status, answer = .ok status → status.code = ApiStatus.success →
      Stands answers a request now asked next) :
    Stands answers a request now asked (.afterSuccess next answer) := by
  unfold AccountStage.afterSuccess
  split
  · exact stands_error_of_untouched h _
  · next status =>
    split
    · next hcode => exact hnext status rfl hcode
    · exact stands_error_of_untouched h _

theorem stands_afterCheck {key : String} {limit : Nat} (attempt limit' : Nat)
    (h : Untouched a now) :
    Stands answers a (.waitQr key limit) now (asked ++ [.qrCheck key])
      (.afterCheck key attempt limit' (answers asked (.qrCheck key))) := by
  unfold AccountStage.afterCheck
  split
  · exact ⟨h, limit, rfl⟩
  · next status hanswer =>
    split
    · next hcode =>
      split
      · next raw hraw =>
        obtain ⟨hcookie, hraw⟩ := usableCookie?_eq_some hraw
        exact ⟨h, .confirmed hanswer hcode hcookie hraw⟩
      · exact stands_error_of_untouched h _
    · split
      · exact stands_error_of_untouched h _
      · exact ⟨h, limit, rfl⟩

theorem stands_afterLogin {phone code : String} (h : Untouched a now) :
    Stands answers a (.sms phone (some code)) now (asked ++ [.loginCellphone phone code])
      (.afterLogin (answers asked (.loginCellphone phone code))) := by
  unfold AccountStage.afterLogin
  split
  · exact stands_error_of_untouched h _
  · next status hanswer =>
    split
    · next raw hraw =>
      obtain ⟨hcookie, hraw⟩ := usableCookie?_eq_some hraw
      split
      · next hcode => exact ⟨h, .loggedIn hanswer hcode hcookie hraw⟩
      · exact stands_error_of_untouched h _
    · exact stands_error_of_untouched h _

/-- An answer writes nothing. -/
theorem Stands.answered (h : Stands answers a request now asked stage)
    (hcall : stage.call? = some call) :
    Stands answers a request now (asked ++ [call])
      (stage.answered malformed (call.reply (answers asked call))) := by
  cases stage with
  | awaitFragment headers =>
    cases hcall
    obtain ⟨huntouched, rfl, hmode, -, rfl⟩ := h
    simp only [ApiCall.reply, AccountStage.answered, AccountStage.afterFragment]
    split
    · next fragment hanswer => exact ⟨huntouched, .refreshed hmode hanswer⟩
    · exact stands_finished_of_untouched huntouched (by simp)
    · exact stands_finished_of_untouched huntouched (by simp)
  | awaitKey =>
    cases hcall
    cases answers asked .qrKey with
    | error e => exact stands_error_of_untouched h e
    | ok key => exact h
  | awaitImage key =>
    cases hcall
    cases answers asked (.qrImage key) with
    | error e => exact stands_error_of_untouched h e
    | ok link =>
      simp only [ApiCall.reply, AccountStage.answered]
      split
      · exact stands_finished_of_untouched h (by simp)
      · exact stands_error_of_untouched h _
  | awaitCheck key attempt limit =>
    cases hcall
    obtain ⟨huntouched, limit', rfl⟩ := h
    exact stands_afterCheck attempt limit huntouched
  | awaitCaptcha phone =>
    cases hcall
    exact stands_afterSuccess h fun _ _ _ =>
      stands_finished_of_untouched h (by simp)
  | awaitVerification phone code =>
    cases hcall
    obtain ⟨huntouched, hrequest, hcode⟩ := h
    apply stands_afterSuccess huntouched
    intro status hanswer hstatus
    exact ⟨huntouched, hrequest, hcode, asked, status, rfl, hanswer, hstatus⟩
  | awaitLogin phone code =>
    cases hcall
    obtain ⟨huntouched, rfl, -⟩ := h
    exact stands_afterLogin huntouched
  | _ => cases hcall

/-- Only a session by password is refreshed. -/
theorem Earned.loginMode (h : Earned answers a request asked cookie mode .refreshed) :
    a.session.loginMode = .password := by
  cases h with
  | refreshed hmode => exact hmode

theorem Earned.outcome_cases (h : Earned answers a request asked cookie mode outcome) :
    outcome = .confirmed ∨ outcome = .loggedIn ∨ outcome = .refreshed := by
  cases h with
  | confirmed => exact .inl rfl
  | loggedIn => exact .inr (.inl rfl)
  | refreshed => exact .inr (.inr rfl)

/-- What was written is the same in the session and in the settings, and is all. -/
theorem stands_finished_of_written (hsession : InSession a now cookie mode)
    (hsettings : InSettings a now cookie mode)
    (hearned : Earned answers a request asked cookie mode outcome) :
    Stands answers a request now asked (.finished (.ok outcome)) := by
  unfold InSession at hsession
  unfold InSettings at hsettings
  constructor
  · apply Settled.wrote hearned
    · rw [hsession]
      exact Session.cookie_withCookie a.session cookie
    · rw [hsession]
    · rw [hsettings]
      simp [Config.withSession, Config.cookie, Pairs.value, Pairs.lookup_set]
    · rw [hsettings]
      rfl
  · constructor
    · intro name hname
      rw [hsession]
      exact Pairs.lookup_set_of_ne _ _ hname
    · rw [hsession]
      rfl
    · rw [hsettings]
    · intro name hname
      rw [hsettings]
      exact Pairs.lookup_set_of_ne _ _ hname
    · rw [hsettings]
      rfl

/-- A request that waits for no answer writes the session first and the settings next. -/
theorem Stands.proceed (h : Stands answers a request now asked stage)
    (hcall : stage.call? = none) (hfinished : stage.isFinished = false) :
    Stands answers a request (stage.proceed now).1 asked (stage.proceed now).2 := by
  cases stage with
  | beginRefresh =>
    obtain ⟨huntouched, hrequest⟩ := h
    simp only [AccountStage.proceed]
    split
    · exact stands_finished_of_untouched huntouched (by simp)
    · next hlooks =>
      rw [huntouched.1] at hlooks ⊢
      simp only [Bool.or_eq_true, not_or] at hlooks
      refine ⟨huntouched, hrequest, ?_, ?_, rfl⟩
      · cases hmode : a.session.loginMode with
        | password => rfl
        | qr => exact absurd (by rw [hmode]; rfl) hlooks.1
      · simpa using hlooks.2
  | rest key attempt limit =>
    obtain ⟨huntouched, hrequest⟩ := h
    simp only [AccountStage.proceed]
    split
    · exact ⟨huntouched, hrequest⟩
    · exact stands_error_of_untouched huntouched _
  | takeCookie raw mode outcome =>
    obtain ⟨huntouched, hearned⟩ := h
    have hsession : InSession a ((AccountStage.takeCookie raw mode outcome).proceed now).1
        (Cookie.normalize raw) mode := by
      simp only [AccountStage.proceed, InSession, Session.logIn, huntouched.1]
    have hcookie : (now.session.logIn raw mode).cookie = Cookie.normalize raw :=
      Session.cookie_withCookie now.session (Cookie.normalize raw)
    refine ⟨huntouched.2, mode, rfl, ?_, ?_⟩
    · rw [hcookie]
      exact hsession
    · rw [hcookie]
      exact hearned
  | layFragment fragment =>
    obtain ⟨huntouched, hearned⟩ := h
    have hmode := hearned.loginMode
    have hcookie : (now.session.refresh fragment).cookie =
        Cookie.merge a.session.cookie fragment := by
      rw [← huntouched.1]
      exact Session.cookie_withCookie now.session _
    refine ⟨huntouched.2, .password, rfl, ?_, ?_⟩
    · rw [hcookie]
      simp only [AccountStage.proceed, InSession, Session.refresh, huntouched.1, ← hmode]
      rfl
    · rw [hcookie]
      exact hearned
  | keepCookie cookie qr outcome =>
    obtain ⟨hconfig, mode, rfl, hsession, hearned⟩ := h
    refine ⟨cookie, mode, hsession, ?_, hearned⟩
    simp only [AccountStage.proceed, InSettings, hconfig]
  | copySettings outcome => exact h
  | writeSettings copy outcome =>
    obtain ⟨cookie, mode, hsession, hsettings, hearned⟩ := h
    exact stands_finished_of_written hsession hsettings hearned
  | finished result => cases hfinished
  | _ => cases hcall

/-! ## A whole request -/

/-- What a request has asked from some moment on is what it may ask. -/
def AsksOnly (answers : Answers) (a : Account) (request : AccountRequest)
    (asked all : List ApiCall) : Prop :=
  ∃ new, all = asked ++ new ∧ ∀ before call after, new = before ++ call :: after →
    MayAsk answers a request (asked ++ before) call

theorem AsksOnly.cons (hmay : MayAsk answers a request asked call)
    (h : AsksOnly answers a request (asked ++ [call]) all) :
    AsksOnly answers a request asked all := by
  obtain ⟨new, rfl, hnew⟩ := h
  refine ⟨call :: new, by simp, ?_⟩
  intro before other after hsplit
  cases before with
  | nil =>
    obtain ⟨rfl, -⟩ := List.cons.inj hsplit
    simpa using hmay
  | cons first before =>
    obtain ⟨rfl, hrest⟩ := List.cons.inj hsplit
    have hother := hnew before other after hrest
    rwa [List.append_assoc] at hother

theorem Stands.completes (h : Stands answers a request now asked stage)
    (hrun : Completes malformed answers now asked stage last all result) :
    Stands answers a request last all (.finished result) ∧
      AsksOnly answers a request asked all := by
  induction hrun with
  | finished account calls result =>
    refine ⟨h, [], by simp, ?_⟩
    intro before call after hsplit
    simp at hsplit
  | asks hcall rest ih =>
    obtain ⟨hlast, hasks⟩ := ih (h.answered hcall)
    exact ⟨hlast, hasks.cons (h.mayAsk hcall)⟩
  | proceeds hcall hfinished rest ih => exact ih (h.proceed hcall hfinished)

/-- What is written agrees, and what is not written agrees as before. -/
theorem Settled.agrees (h : Settled answers a request b asked result)
    (hbefore : b.session ≠ a.session ∨ b.config ≠ a.config ∨ a.Agrees) : b.Agrees := by
  cases h with
  | wrote hearned hcookie hmode hkept hqr =>
    exact ⟨hcookie.trans hkept.symm, by rw [hmode, hqr]⟩
  | kept hresult hsession hconfig =>
    rcases hbefore with hne | hne | hagrees
    · exact absurd hsession hne
    · exact absurd hconfig hne
    · unfold Account.Agrees at hagrees ⊢
      rwa [hsession, hconfig]

theorem served (malformed : String) (answers : Answers) (a : Account) (asked : List ApiCall)
    (request : AccountRequest) :
    let run := a.serve malformed answers asked request
    Settled answers a request run.account run.calls run.result ∧ SameBeyond a run.account ∧
      AsksOnly answers a request asked run.calls := by
  intro run
  obtain ⟨⟨hsettled, hsame⟩, hasks⟩ := (stands_begin answers a request asked).completes
    (completes_serve malformed answers a asked request)
  exact ⟨hsettled, hsame, hasks⟩

/-! ## Requests one after the other -/

/-- What every request keeps holds before and after each of them. -/
theorem serveAll_invariant {P : Account → Prop} {requests : List AccountRequest}
    (hstep : ∀ a asked request, P a → P (serve malformed answers a asked request).account)
    (h : P a) : ∀ s ∈ serveAll malformed answers a asked requests,
      P s.before ∧ P s.run.account ∧
        s.run = s.before.serve malformed answers s.asked s.request := by
  induction requests generalizing a asked with
  | nil =>
    intro s hs
    cases hs
  | cons request more ih =>
    intro s hs
    rcases List.mem_cons.mp hs with rfl | hs
    · exact ⟨h, hstep a asked request h, rfl⟩
    · exact ih (hstep a asked request h) s hs

/-- Of requests that are served one after the other each comes to its end.  It writes the session
and the settings in memory exactly if it ends in a success that the last answer has earned, and
then they agree; otherwise it leaves both as they were.  Nothing else in them ever changes, and
each request asks only what it may. -/
theorem writes_both_or_neither (malformed : String) (answers : Answers) (a : Account)
    (asked : List ApiCall) (requests : List AccountRequest) :
    ∀ s ∈ serveAll malformed answers a asked requests,
      Completes malformed answers s.before s.asked s.request.stage s.run.account s.run.calls
          s.run.result ∧
        Settled answers s.before s.request s.run.account s.run.calls s.run.result ∧
        (s.run.account.session ≠ s.before.session ∨ s.run.account.config ≠ s.before.config ∨
          a.Agrees → s.run.account.Agrees) ∧
        SameBeyond a s.run.account ∧
        AsksOnly answers s.before s.request s.asked s.run.calls := by
  have hkept : ∀ s ∈ serveAll malformed answers a asked requests,
      (SameBeyond a s.before ∧ (a.Agrees → s.before.Agrees)) ∧
        (SameBeyond a s.run.account ∧ (a.Agrees → s.run.account.Agrees)) ∧
        s.run = s.before.serve malformed answers s.asked s.request := by
    apply serveAll_invariant (P := fun b => SameBeyond a b ∧ (a.Agrees → b.Agrees))
    · rintro b asked request ⟨hsame, hagrees⟩
      obtain ⟨hsettled, hbeyond, -⟩ := served malformed answers b asked request
      exact ⟨hsame.trans hbeyond, fun h => hsettled.agrees (.inr (.inr (hagrees h)))⟩
    · exact ⟨.refl a, id⟩
  intro s hs
  obtain ⟨-, ⟨hsame, hagrees⟩, hrun⟩ := hkept s hs
  obtain ⟨hsettled, -, hasks⟩ := served malformed answers s.before s.asked s.request
  have hcompletes := completes_serve malformed answers s.before s.asked s.request
  rw [← hrun] at hsettled hasks hcompletes
  refine ⟨hcompletes, hsettled, ?_, hsame, hasks⟩
  rintro (hwrote | hwrote | hbefore)
  · exact hsettled.agrees (.inl hwrote)
  · exact hsettled.agrees (.inr (.inl hwrote))
  · exact hagrees hbefore

/-- The settings cannot be saved.  A refresh is refused and leaves the account as it was, and then
a confirmed picture brings a new cookie. -/
theorem writes_both_or_neither_of_login :
    let answers : Answers := fun _ call =>
      match call with
      | .refresh _ => .ok none
      | .qrCheck _ => .ok ⟨803, none, some "a=1; Path=/; b=2"⟩
      | .qrKey | .qrImage _ | .sendCaptcha _ | .verifyCaptcha _ _ | .loginCellphone _ _ =>
        .error .emptyQueue
    let a : Account := ⟨⟨[(cookieHeader, "old=1")], .password, 30⟩,
      ⟨[], { Config.standard with header := [(cookieHeader, "old=1")] }⟩, .empty⟩
    let refused := a.serve "" answers [] .refresh
    let confirmed := refused.account.serve "" answers refused.calls (.waitQr "key" 3)
    refused.result = .ok .rejected ∧ refused.account.session = a.session ∧
      confirmed.result = .ok .confirmed ∧ confirmed.account.session.cookie = "a=1; b=2" ∧
      confirmed.account.Agrees := by
  intro answers a refused confirmed
  have hall := writes_both_or_neither "" answers a [] [.refresh, .waitQr "key" 3]
  have hfirst : ⟨a, [], .refresh, refused⟩ ∈
      serveAll "" answers a [] [.refresh, .waitQr "key" 3] := List.mem_cons_self
  have hsecond : ⟨refused.account, refused.calls, .waitQr "key" 3, confirmed⟩ ∈
      serveAll "" answers a [] [.refresh, .waitQr "key" 3] :=
    List.mem_cons_of_mem _ List.mem_cons_self
  have hrefused : refused.result = .ok .rejected := by decide +kernel
  have hconfirmed : confirmed.result = .ok .confirmed := by decide +kernel
  have hagrees : a.Agrees := by decide +kernel
  obtain ⟨-, hsettled, -⟩ := hall _ hfirst
  obtain ⟨-, -, hafter, -⟩ := hall _ hsecond
  refine ⟨hrefused, ?_, hconfirmed, by decide +kernel, hafter (.inr (.inr hagrees))⟩
  dsimp only at hsettled
  rw [hrefused] at hsettled
  cases hsettled with
  | wrote hearned => obtain h | h | h := hearned.outcome_cases <;> cases h
  | kept hresult hsession => exact hsession

end Account

end Jukebox
