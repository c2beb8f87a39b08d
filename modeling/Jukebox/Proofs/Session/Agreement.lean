import Jukebox.Proofs.Session.Run

/-!
# When the settings and the session disagree

A login writes its cookie into the session and then into the settings, and so does a refresh,
which has looked at the session before it asked the catalog.  Between these steps others may
write the session.  Then what is written into the settings is stale, and if nobody writes them
again they stay different from the session (`AccountSystem.disagrees_iff_endsStale`).  The
fragment of a refresh is laid over whatever cookie the session has by then.
-/

namespace Jukebox

/-- The session has this cookie, and comes from a login by picture or not. -/
def Session.Matches (s : Session) (cookie : String) (qr : Bool) : Prop :=
  s.cookie = cookie ∧ s.loginMode.isQr = qr

instance (s : Session) (cookie : String) (qr : Bool) : Decidable (s.Matches cookie qr) :=
  inferInstanceAs (Decidable (_ ∧ _))

/-- The settings in memory hold the cookie of the session and its kind of login. -/
def Account.Agrees (a : Account) : Prop :=
  a.session.Matches a.config.current.cookie a.config.current.isQrLogin

instance (a : Account) : Decidable a.Agrees := inferInstanceAs (Decidable (Session.Matches _ _ _))

namespace AccountStage

/-- What the operation does next follows from the session as it is now. -/
def looks : AccountStage → Bool
  | .beginRefresh | .takeCookie _ _ _ => true
  | _ => false

/-- About to change the session. -/
def writesSession : AccountStage → Bool
  | .takeCookie _ _ _ | .layFragment _ => true
  | _ => false

/-- What the operation does next follows from the session as it was. -/
def recalls : AccountStage → Bool
  | .awaitFragment _ | .layFragment _ | .keepCookie _ _ _ => true
  | _ => false

variable {account : Account} {stage : AccountStage} {malformed : String}

theorem proceed_session (h : stage.writesSession = false) :
    (stage.proceed account).1.session = account.session := by
  cases stage with
  | beginRefresh =>
    simp only [proceed]
    split <;> rfl
  | rest key attempt limit =>
    simp only [proceed]
    split <;> rfl
  | takeCookie raw mode outcome => cases h
  | layFragment fragment => cases h
  | _ => rfl

theorem proceed_settings (h : ∀ cookie qr outcome, stage ≠ .keepCookie cookie qr outcome) :
    (stage.proceed account).1.config.current = account.config.current := by
  cases stage with
  | beginRefresh =>
    simp only [proceed]
    split <;> rfl
  | rest key attempt limit =>
    simp only [proceed]
    split <;> rfl
  | keepCookie cookie qr outcome => exact absurd rfl (h cookie qr outcome)
  | _ => rfl

/-- Whoever writes the session writes the settings next. -/
theorem proceed_of_writesSession (h : stage.writesSession = true) :
    ∃ cookie qr outcome, (stage.proceed account).2 = .keepCookie cookie qr outcome := by
  cases stage with
  | takeCookie raw mode outcome => exact ⟨_, _, _, rfl⟩
  | layFragment fragment => exact ⟨_, _, _, rfl⟩
  | _ => cases h

theorem proceed_keepCookie (cookie : String) (qr : Bool) (outcome : AccountOutcome) :
    ((keepCookie cookie qr outcome).proceed account).1.Agrees ↔
      account.session.Matches cookie qr := by
  have hcookie : (account.config.current.withSession cookie qr).cookie = cookie := by
    simp [Config.withSession, Config.cookie, Pairs.value, Pairs.lookup_set]
  simp only [proceed, Account.Agrees, hcookie]
  exact Iff.rfl

theorem recalls_of_request (request : AccountRequest) : request.stage.recalls = false := by
  cases request with
  | waitQr key limit =>
    simp only [AccountRequest.stage, Account.waitQr]
    split <;> rfl
  | sms phone code =>
    simp only [AccountRequest.stage, Account.sms]
    split
    · rfl
    · cases code with
      | none => rfl
      | some code =>
        dsimp only
        split <;> rfl
  | _ => rfl

theorem recalls_afterCheck (key : String) (attempt limit : Nat)
    (answer : Except Error ApiStatus) : (afterCheck key attempt limit answer).recalls = false := by
  unfold afterCheck
  split
  · rfl
  · split
    · split <;> rfl
    · split <;> rfl

theorem recalls_afterLogin (answer : Except Error ApiStatus) :
    (afterLogin answer).recalls = false := by
  unfold afterLogin
  split
  · rfl
  · split
    · split <;> rfl
    · rfl

theorem recalls_afterSuccess {next : AccountStage} (h : next.recalls = false)
    (answer : Except Error ApiStatus) : (afterSuccess next answer).recalls = false := by
  unfold afterSuccess
  split
  · rfl
  · split
    · exact h
    · rfl

/-- Of all answers only that to a refresh goes to an operation that has looked at the session. -/
theorem answered_of_recalls {reply : ApiReply} (hcall : stage.call?.isSome)
    (h : (stage.answered malformed reply).recalls = true) :
    ∃ headers, stage = .awaitFragment headers ∧
      (stage.answered malformed reply = stage ∨
        ∃ fragment, stage.answered malformed reply = .layFragment fragment) := by
  have hnot : ∀ {next : AccountStage}, next.recalls = false → next.recalls ≠ true := by
    intro next hnext
    rw [hnext]
    exact Bool.false_ne_true
  cases stage with
  | awaitFragment headers =>
    refine ⟨headers, rfl, ?_⟩
    cases reply with
    | fragment answer =>
      rcases answer with e | (_ | fragment)
      · cases h
      · cases h
      · exact .inr ⟨fragment, rfl⟩
    | _ => exact .inl rfl
  | awaitKey => rcases reply with (_ | _) | _ | _ <;> cases h
  | awaitImage key =>
    rcases reply with (_ | link) | _ | _
    · cases h
    · simp only [answered] at h
      split at h <;> cases h
    · cases h
    · cases h
  | awaitCheck key attempt limit =>
    cases reply with
    | status answer => exact absurd h (hnot (recalls_afterCheck key attempt limit answer))
    | _ => cases h
  | awaitCaptcha phone =>
    cases reply with
    | status answer => exact absurd h (hnot (recalls_afterSuccess rfl answer))
    | _ => cases h
  | awaitVerification phone code =>
    cases reply with
    | status answer => exact absurd h (hnot (recalls_afterSuccess rfl answer))
    | _ => cases h
  | awaitLogin phone code =>
    cases reply with
    | status answer => exact absurd h (hnot (recalls_afterLogin answer))
    | _ => cases h
  | _ => cases hcall

/-- The three ways to a stage that follows from the session as it was. -/
theorem proceed_of_recalls (hcall : stage.call? = none)
    (h : (stage.proceed account).2.recalls = true) :
    (stage = .beginRefresh ∧ account.session.loginMode.isQr = false ∧
        stage.proceed account = (account, .awaitFragment account.session.headers)) ∨
      stage.writesSession = true := by
  cases stage with
  | beginRefresh =>
    simp only [proceed] at h
    split at h
    · cases h
    · next hasks =>
      have hasks' := hasks
      rw [Bool.or_eq_true, not_or] at hasks'
      exact .inl ⟨rfl, Bool.eq_false_iff.mpr hasks'.1, by simp only [proceed, if_neg hasks]⟩
  | rest key attempt limit =>
    simp only [proceed] at h
    split at h <;> cases h
  | takeCookie raw mode outcome => exact .inr rfl
  | layFragment fragment => exact .inr rfl
  | awaitFragment headers => cases hcall
  | _ => cases h

end AccountStage

namespace AccountSystem

variable {malformed : String} {s t u : AccountSystem} {m : AccountMove}
  {moves : List AccountMove} {op op' : Nat} {stage next : AccountStage}

/-! ## What an operation has seen -/

/-- The operation is about to look at the session. -/
def LooksAtSession (s : AccountSystem) (op : Nat) : Prop :=
  ∃ stage, s.stage? op = some stage ∧ stage.looks = true

/-- The operation is about to change the session. -/
def WritesSession (s : AccountSystem) (op : Nat) : Prop :=
  ∃ stage, s.stage? op = some stage ∧ stage.writesSession = true

/-- The operation is about to write a cookie and a kind of login into the settings. -/
def Keeps (s : AccountSystem) (op : Nat) (cookie : String) (qr : Bool) : Prop :=
  ∃ outcome, s.stage? op = some (.keepCookie cookie qr outcome)

/-- On the run another operation writes the session. -/
def Rewritten (malformed : String) (s : AccountSystem) (moves : List AccountMove) (op : Nat) :
    Prop :=
  ∃ before op' after u, moves = before ++ .proceed op' :: after ∧
    s.Run malformed before u ∧ u.WritesSession op' ∧ op' ≠ op

/-- On the run the operation goes on where `looked` holds, and then `kept` holds of that moment
or another operation writes the session afterwards. -/
def Since (malformed : String) (s : AccountSystem) (moves : List AccountMove) (op : Nat)
    (looked kept : AccountSystem → Prop) : Prop :=
  ∃ before after u v, moves = before ++ .proceed op :: after ∧ s.Run malformed before u ∧
    looked u ∧ u.move? malformed (.proceed op) = some v ∧
    (kept u ∨ v.Rewritten malformed after op)

/-- Another operation has written the session since this one looked at it. -/
def Overtaken (malformed : String) (s : AccountSystem) (moves : List AccountMove) (op : Nat) :
    Prop :=
  s.Since malformed moves op (·.LooksAtSession op) fun _ => False

variable {looked looked' kept kept' : AccountSystem → Prop}

theorem Rewritten.snoc (h : s.Rewritten malformed moves op) (m : AccountMove) :
    s.Rewritten malformed (moves ++ [m]) op := by
  obtain ⟨before, op', after, u, rfl, hrun, hwrites, hne⟩ := h
  exact ⟨before, op', after ++ [m], u, by simp, hrun, hwrites, hne⟩

theorem Since.mono (h : s.Since malformed moves op looked kept)
    (hlooked : ∀ u, looked u → looked' u) (hkept : ∀ u, looked u → kept u → kept' u) :
    s.Since malformed moves op looked' kept' := by
  obtain ⟨before, after, u, v, hmoves, hrun, hlook, hmove, hor⟩ := h
  exact ⟨before, after, u, v, hmoves, hrun, hlooked u hlook, hmove, hor.imp_left (hkept u hlook)⟩

theorem Since.snoc (h : s.Since malformed moves op looked kept) (m : AccountMove) :
    s.Since malformed (moves ++ [m]) op looked kept := by
  obtain ⟨before, after, u, v, rfl, hrun, hlook, hmove, hor⟩ := h
  exact ⟨before, after ++ [m], u, v, by simp, hrun, hlook, hmove,
    hor.imp_right fun hrewritten => hrewritten.snoc m⟩

theorem Since.rewritten (h : s.Since malformed moves op looked kept)
    (hrun : s.Run malformed moves t) (hwrites : t.WritesSession op') (hne : op' ≠ op) :
    s.Since malformed (moves ++ [.proceed op']) op looked kept' := by
  obtain ⟨before, after, u, v, rfl, hbefore, hlook, hmove, -⟩ := h
  obtain ⟨v', hmove', hafter⟩ := hrun.next hbefore
  obtain rfl := Option.some.inj (hmove.symm.trans hmove')
  exact ⟨before, after ++ [.proceed op'], u, v, by simp, hbefore, hlook, hmove,
    .inr ⟨after, op', [], t, rfl, hafter, hwrites, hne⟩⟩

theorem since_of_move (hrun : s.Run malformed moves t) (hlook : looked t)
    (hmove : t.move? malformed (.proceed op) = some u) (hkept : kept t) :
    s.Since malformed (moves ++ [.proceed op]) op looked kept :=
  ⟨moves, [], t, u, rfl, hrun, hlook, hmove, .inl hkept⟩

/-- What an operation that has looked at the session still knows of it: the session is as it
was, or another operation has written it. -/
def Informed (malformed : String) (s : AccountSystem) (moves : List AccountMove)
    (t : AccountSystem) (op : Nat) : AccountStage → Prop
  | .awaitFragment _ | .layFragment _ =>
    s.Since malformed moves op
      (fun u => u.stage? op = some .beginRefresh ∧ u.account.session.loginMode.isQr = false)
      fun u => t.account.session = u.account.session
  | .keepCookie cookie qr _ =>
    s.Since malformed moves op (·.LooksAtSession op)
      fun _ => t.account.session.Matches cookie qr
  | _ => True

theorem informed_of_not_recalls (h : stage.recalls = false) :
    s.Informed malformed moves t op stage := by
  cases stage with
  | awaitFragment headers => cases h
  | layFragment fragment => cases h
  | keepCookie cookie qr outcome => cases h
  | _ => exact trivial

/-- What is known stays known while the session stays. -/
theorem Informed.snoc (h : s.Informed malformed moves t op stage)
    (hsession : u.account.session = t.account.session) (m : AccountMove) :
    s.Informed malformed (moves ++ [m]) u op stage := by
  cases stage with
  | awaitFragment headers =>
    exact (Since.snoc h m).mono (fun _ hlook => hlook) fun _ _ hkept => hsession.trans hkept
  | layFragment fragment =>
    exact (Since.snoc h m).mono (fun _ hlook => hlook) fun _ _ hkept => hsession.trans hkept
  | keepCookie cookie qr outcome =>
    exact (Since.snoc h m).mono (fun _ hlook => hlook) fun _ _ hkept => hsession ▸ hkept
  | _ => exact trivial

/-- When another operation writes the session, what was known is out of date. -/
theorem Informed.rewritten (h : s.Informed malformed moves t op stage)
    (hrun : s.Run malformed moves t) (hwrites : t.WritesSession op') (hne : op' ≠ op) :
    s.Informed malformed (moves ++ [.proceed op']) u op stage := by
  cases stage with
  | awaitFragment headers => exact Since.rewritten h hrun hwrites hne
  | layFragment fragment => exact Since.rewritten h hrun hwrites hne
  | keepCookie cookie qr outcome => exact Since.rewritten h hrun hwrites hne
  | _ => exact trivial

theorem Made.session_eq_or_writes (h : Made malformed s t m op next) :
    t.account.session = s.account.session ∨ m = .proceed op ∧ s.WritesSession op := by
  cases h with
  | arrive haccount => exact .inl (congrArg Account.session haccount)
  | @proceed _ stage hbefore hcall haccount =>
    cases hwrites : stage.writesSession with
    | false => exact .inl (by rw [haccount, AccountStage.proceed_session hwrites])
    | true => exact .inr ⟨rfl, stage, hbefore, hwrites⟩
  | answer hbefore hcall haccount => exact .inl (congrArg Account.session haccount)

/-- An operation that goes on knows what the session is, or that another has written it. -/
theorem informed_of_made (hrun : s.Run malformed moves t)
    (h : ∀ op stage, t.stage? op = some stage → s.Informed malformed moves t op stage)
    (hmove : t.move? malformed m = some u) (hmade : Made malformed t u m op next) :
    s.Informed malformed (moves ++ [m]) u op next := by
  cases hknows : next.recalls with
  | false => exact informed_of_not_recalls hknows
  | true =>
    cases hmade with
    | @arrive request =>
      rw [AccountStage.recalls_of_request request] at hknows
      cases hknows
    | @answer _ reply stage hbefore hcall haccount =>
      have hsession : u.account.session = t.account.session := congrArg Account.session haccount
      have hinformed := (h op stage hbefore).snoc hsession (.answer op reply)
      obtain ⟨headers, rfl, hnext | ⟨fragment, hnext⟩⟩ :=
        AccountStage.answered_of_recalls hcall hknows
      · rw [hnext]
        exact hinformed
      · rw [hnext]
        exact hinformed
    | @proceed _ stage hbefore hcall haccount =>
      rcases AccountStage.proceed_of_recalls hcall hknows with ⟨rfl, hpassword, heq⟩ | hwrites
      · rw [heq] at haccount ⊢
        exact since_of_move hrun ⟨hbefore, hpassword⟩ hmove (congrArg Account.session haccount)
      · cases stage with
        | takeCookie raw mode outcome =>
          refine since_of_move hrun ⟨_, hbefore, rfl⟩ hmove ?_
          rw [haccount]
          exact ⟨rfl, rfl⟩
        | layFragment fragment =>
          have hinformed := Since.snoc (h op _ hbefore) (.proceed op)
          refine hinformed.mono (fun v hlook => ⟨_, hlook.1, rfl⟩) ?_
          intro v hlook hkept
          have hmode : t.account.session.loginMode.isQr = false := by
            rw [hkept]
            exact hlook.2
          rw [haccount]
          exact ⟨rfl, hmode⟩
        | _ => cases hwrites

theorem informed_of_run {account : Account} (h : (start account).Run malformed moves t) :
    ∀ op stage, t.stage? op = some stage →
      (start account).Informed malformed moves t op stage := by
  refine h.invariant (P := fun moves t => ∀ op stage, t.stage? op = some stage →
    (start account).Informed malformed moves t op stage) ?_ ?_
  · intro op stage hstage
    cases hstage
  intro moves t u m hrun ih hmove op stage hstage
  obtain ⟨-, mover, next, hmade, hafter⟩ := made_of_move? hrun.fresh hmove
  rw [hafter] at hstage
  by_cases hop : op = mover
  · subst hop
    rw [if_pos rfl, AccountStage.underWay?_eq_some] at hstage
    rw [← hstage.1]
    exact informed_of_made hrun ih hmove hmade
  · rw [if_neg hop] at hstage
    rcases hmade.session_eq_or_writes with hsession | ⟨rfl, hwrites⟩
    · exact (ih op stage hstage).snoc hsession m
    · exact (ih op stage hstage).rewritten hrun hwrites (Ne.symm hop)

/-! ## What is written into the settings -/

/-- Some operation is about to write the settings. -/
def SomebodyKeeps (s : AccountSystem) : Prop := ∃ op cookie qr, s.Keeps op cookie qr

/-- The move writes the settings. -/
def WritesSettings (s : AccountSystem) (m : AccountMove) : Prop :=
  ∃ op cookie qr, m = .proceed op ∧ s.Keeps op cookie qr

/-- On the run nobody writes the settings. -/
def KeepsNothing (malformed : String) (s : AccountSystem) (moves : List AccountMove) : Prop :=
  ∀ before m after u, moves = before ++ m :: after → s.Run malformed before u →
    ¬u.WritesSettings m

/-- The last that is written into the settings on the run is another cookie than the session has
then, or another kind of login, and the operation that writes it was overtaken. -/
def EndsStale (malformed : String) (s : AccountSystem) (moves : List AccountMove) : Prop :=
  ∃ before op after u v cookie qr, moves = before ++ .proceed op :: after ∧
    s.Run malformed before u ∧ u.Keeps op cookie qr ∧ ¬u.account.session.Matches cookie qr ∧
    s.Overtaken malformed before op ∧ u.move? malformed (.proceed op) = some v ∧
    v.KeepsNothing malformed after

theorem KeepsNothing.snoc (h : s.KeepsNothing malformed moves) (hrun : s.Run malformed moves t)
    (hm : ¬t.WritesSettings m) : s.KeepsNothing malformed (moves ++ [m]) := by
  intro before m' after u hmoves hbefore
  rcases after.eq_nil_or_concat with rfl | ⟨after, last, rfl⟩
  · obtain ⟨rfl, hlast⟩ := List.append_inj' hmoves rfl
    obtain rfl := List.singleton_inj.mp hlast
    obtain rfl := hbefore.target_unique hrun
    exact hm
  · rw [List.concat_eq_append, ← List.cons_append, ← List.append_assoc] at hmoves
    exact h before m' after u (List.append_inj' hmoves rfl).1 hbefore

theorem KeepsNothing.of_snoc (h : s.KeepsNothing malformed (moves ++ [m]))
    (hrun : s.Run malformed moves t) :
    s.KeepsNothing malformed moves ∧ ¬t.WritesSettings m := by
  refine ⟨?_, h moves m [] t rfl hrun⟩
  rintro before m' after u rfl hbefore
  exact h before m' (after ++ [m]) u (by simp) hbefore

theorem EndsStale.snoc (h : s.EndsStale malformed moves) (hrun : s.Run malformed moves t)
    (hm : ¬t.WritesSettings m) : s.EndsStale malformed (moves ++ [m]) := by
  obtain ⟨before, op, after, u, v, cookie, qr, rfl, hbefore, hkeeps, hstale, hovertaken, hmove,
    hnothing⟩ := h
  obtain ⟨v', hmove', hafter⟩ := hrun.next hbefore
  obtain rfl := Option.some.inj (hmove.symm.trans hmove')
  exact ⟨before, op, after ++ [m], u, v, cookie, qr, by simp, hbefore, hkeeps, hstale, hovertaken,
    hmove, hnothing.snoc hafter hm⟩

theorem Made.settings_eq (h : Made malformed s t m op next) (hm : ¬s.WritesSettings m) :
    t.account.config.current = s.account.config.current := by
  cases h with
  | arrive haccount => rw [haccount]
  | answer hbefore hcall haccount => rw [haccount]
  | @proceed _ stage hbefore hcall haccount =>
    rw [haccount]
    refine AccountStage.proceed_settings ?_
    rintro cookie qr outcome rfl
    exact hm ⟨op, cookie, qr, rfl, outcome, hbefore⟩

/-- A move that does not write the settings leaves somebody who is about to, or nobody was and
it leaves the agreement as it was. -/
theorem somebodyKeeps_or_agrees_iff (hs : s.Fresh) (h : s.move? malformed m = some t)
    (hm : ¬s.WritesSettings m) :
    t.SomebodyKeeps ∨ ¬s.SomebodyKeeps ∧ (t.account.Agrees ↔ s.account.Agrees) := by
  obtain ⟨-, mover, next, hmade, hafter⟩ := made_of_move? hs h
  by_cases hkeeps : s.SomebodyKeeps
  · obtain ⟨op, cookie, qr, outcome, hstage⟩ := hkeeps
    have hne : op ≠ mover := by
      rintro rfl
      cases hmade with
      | arrive => exact absurd (hs hstage) (Nat.lt_irrefl _)
      | proceed => exact hm ⟨op, cookie, qr, rfl, outcome, hstage⟩
      | answer hbefore hcall =>
        obtain rfl := Option.some.inj (hstage.symm.trans hbefore)
        cases hcall
    exact .inl ⟨op, cookie, qr, outcome, by rw [hafter, if_neg hne, hstage]⟩
  · rcases hmade.session_eq_or_writes with hsession | ⟨rfl, stage, hstage, hwrites⟩
    · refine .inr ⟨hkeeps, ?_⟩
      rw [Account.Agrees, hsession, hmade.settings_eq hm]
      exact Iff.rfl
    · cases hmade with
      | proceed hbefore =>
        obtain rfl := Option.some.inj (hstage.symm.trans hbefore)
        obtain ⟨cookie, qr, outcome, hnext⟩ := AccountStage.proceed_of_writesSession hwrites
        refine .inl ⟨mover, cookie, qr, outcome, ?_⟩
        rw [hafter, if_pos rfl, hnext]
        rfl

theorem Quiet.not_somebodyKeeps (h : s.Quiet) : ¬s.SomebodyKeeps := by
  rintro ⟨op, cookie, qr, outcome, hstage⟩
  have hempty : s.inFlight = [] := h
  simp [stage?, hempty] at hstage

/-- A write of the settings ends in agreement exactly if it is not stale. -/
theorem Keeps.agrees_iff {cookie : String} {qr : Bool} (h : s.Keeps op cookie qr)
    (hmove : s.move? malformed (.proceed op) = some t) (hs : s.Fresh) :
    t.account.Agrees ↔ s.account.session.Matches cookie qr := by
  obtain ⟨outcome, hstage⟩ := h
  obtain ⟨-, mover, next, hmade, -⟩ := made_of_move? hs hmove
  cases hmade with
  | proceed hbefore hcall haccount =>
    obtain rfl := Option.some.inj (hstage.symm.trans hbefore)
    rw [haccount]
    exact AccountStage.proceed_keepCookie cookie qr outcome

/-- At every moment of a run there is agreement, or somebody is about to write the settings, or
what was written last is stale. -/
theorem agrees_or_endsStale {account : Account} (hagrees : account.Agrees)
    (h : (start account).Run malformed moves t) :
    t.account.Agrees ∨ t.SomebodyKeeps ∨ (start account).EndsStale malformed moves := by
  refine h.invariant (P := fun moves t => t.account.Agrees ∨ t.SomebodyKeeps ∨
    (start account).EndsStale malformed moves) (.inl hagrees) ?_
  intro moves t u m hrun ih hmove
  by_cases hm : t.WritesSettings m
  · obtain ⟨op, cookie, qr, rfl, hkeeps⟩ := hm
    by_cases hmatches : t.account.session.Matches cookie qr
    · exact .inl ((hkeeps.agrees_iff hmove hrun.fresh).mpr hmatches)
    · obtain ⟨outcome, hstage⟩ := hkeeps
      have hinformed : (start account).Since malformed moves op (·.LooksAtSession op)
          fun _ => t.account.session.Matches cookie qr := informed_of_run hrun op _ hstage
      have hovertaken : (start account).Overtaken malformed moves op :=
        hinformed.mono (fun _ hlook => hlook) fun _ _ hkept => hmatches hkept
      refine .inr (.inr ⟨moves, op, [], t, u, cookie, qr, rfl, hrun, ⟨outcome, hstage⟩, hmatches,
        hovertaken, hmove, ?_⟩)
      intro before m after v hnil
      simp at hnil
  · rcases somebodyKeeps_or_agrees_iff hrun.fresh hmove hm with hkeeps | ⟨hnobody, hiff⟩
    · exact .inr (.inl hkeeps)
    · rcases ih with hagrees | hkeeps | hstale
      · exact .inl (hiff.mpr hagrees)
      · exact absurd hkeeps hnobody
      · exact .inr (.inr (hstale.snoc hrun hm))

/-- A disagreement lasts until somebody writes the settings. -/
theorem disagrees_or_somebodyKeeps (hs : s.Fresh) (hagrees : ¬s.account.Agrees)
    (hrun : s.Run malformed moves t) (hnothing : s.KeepsNothing malformed moves) :
    t.Fresh ∧ (¬t.account.Agrees ∨ t.SomebodyKeeps) := by
  induction moves using List.reverseRecOn generalizing t with
  | nil =>
    obtain rfl := run_nil_iff.mp hrun
    exact ⟨hs, .inl hagrees⟩
  | append_singleton moves m ih =>
    obtain ⟨u, hbefore, hmove⟩ := run_snoc_iff.mp hrun
    obtain ⟨hnothing, hm⟩ := hnothing.of_snoc hbefore
    obtain ⟨hfresh, hor⟩ := ih hbefore hnothing
    refine ⟨(made_of_move? hfresh hmove).1, ?_⟩
    rcases somebodyKeeps_or_agrees_iff hfresh hmove hm with hkeeps | ⟨hnobody, hiff⟩
    · exact .inr hkeeps
    · exact .inl fun h => hor.elim (fun hnot => hnot (hiff.mp h)) hnobody

theorem EndsStale.disagrees {account : Account}
    (h : (start account).EndsStale malformed moves)
    (hrun : (start account).Run malformed moves t) (hquiet : t.Quiet) : ¬t.account.Agrees := by
  obtain ⟨before, op, after, u, v, cookie, qr, rfl, hbefore, hkeeps, hstale, -, hmove, hnothing⟩ := h
  obtain ⟨v', hmove', hafter⟩ := hrun.next hbefore
  obtain rfl := Option.some.inj (hmove.symm.trans hmove')
  have hdisagrees : ¬v.account.Agrees :=
    fun hagrees => hstale ((hkeeps.agrees_iff hmove hbefore.fresh).mp hagrees)
  have hfresh := (made_of_move? hbefore.fresh hmove).1
  exact (disagrees_or_somebodyKeeps hfresh hdisagrees hafter hnothing).2.resolve_right
    hquiet.not_somebodyKeeps

/-- On a run from an account that agrees with its settings, with nothing in flight at its end,
the settings disagree with the session exactly if the last that was written into them was stale,
by an operation that another one had overtaken.  A fragment is laid over the cookie that the
session has by then.  That is the session that the refresh was sent with, unless another
operation has written it since. -/
theorem disagrees_iff_endsStale {account : Account} (hagrees : account.Agrees)
    (hrun : (start account).Run malformed moves t) (hquiet : t.Quiet) :
    (¬t.account.Agrees ↔ (start account).EndsStale malformed moves) ∧
      ∀ before op after u fragment, moves = before ++ .proceed op :: after →
        (start account).Run malformed before u → u.stage? op = some (.layFragment fragment) →
        (∃ v, u.move? malformed (.proceed op) = some v ∧
          v.account.session = u.account.session.refresh fragment) ∧
        (start account).Since malformed before op (·.stage? op = some .beginRefresh)
          (·.account.session = u.account.session) := by
  refine ⟨⟨?_, fun hstale => hstale.disagrees hrun hquiet⟩, ?_⟩
  · intro hdisagrees
    rcases agrees_or_endsStale hagrees hrun with h | h | h
    · exact absurd h hdisagrees
    · exact absurd h hquiet.not_somebodyKeeps
    · exact h
  · rintro before op after u fragment rfl hbefore hstage
    obtain ⟨v, hmove, -⟩ := hrun.next hbefore
    obtain ⟨-, mover, next, hmade, -⟩ := made_of_move? hbefore.fresh hmove
    have hsession : v.account.session = u.account.session.refresh fragment := by
      cases hmade with
      | proceed hat hcall haccount =>
        obtain rfl := Option.some.inj (hstage.symm.trans hat)
        rw [haccount]
        rfl
    have hinformed := informed_of_run hbefore op _ hstage
    exact ⟨⟨v, hmove, hsession⟩,
      Since.mono hinformed (fun _ hlook => hlook.1) fun _ _ hkept => hkept.symm⟩

/-- A refresh is sent, and before it is answered a login by picture is completed.  Then the
fragment goes into the cookie of that login, and the settings take it for a login by phone. -/
theorem disagrees_iff_endsStale_of_login :
    let account : Account := ⟨⟨[(cookieHeader, "a=1")], .password, 30⟩,
      ⟨[], Config.standard.withSession "a=1" false⟩, .empty⟩
    let moves : List AccountMove := [.arrive .refresh, .proceed 0, .arrive (.waitQr "k" 1),
      .answer 1 (.status (.ok ⟨ApiStatus.qrConfirmed, none, some "u=2"⟩)), .proceed 1, .proceed 1,
      .proceed 1, .proceed 1, .answer 0 (.fragment (.ok (some "b=3"))), .proceed 0, .proceed 0,
      .proceed 0, .proceed 0]
    let t := (start account).after "" moves
    account.Agrees ∧ (start account).Run "" moves t ∧ t.Quiet ∧
      t.account.session.cookie = "u=2; b=3" ∧ t.account.session.loginMode = .qr ∧
      t.account.config.current.isQrLogin = false ∧ (start account).EndsStale "" moves := by
  intro account moves t
  have hagrees : account.Agrees := by decide +kernel
  have hrun : (start account).Run "" moves t := run_after (by decide +kernel)
  have hquiet : t.inFlight = [] := by decide +kernel
  have hcookie : t.account.session.cookie = "u=2; b=3" := by decide +kernel
  have hmode : t.account.session.loginMode = .qr := by decide +kernel
  have hqr : t.account.config.current.isQrLogin = false := by decide +kernel
  have hdisagrees : ¬t.account.Agrees := by
    rintro ⟨-, hkind⟩
    rw [hmode, hqr] at hkind
    cases hkind
  exact ⟨hagrees, hrun, hquiet, hcookie, hmode, hqr,
    (disagrees_iff_endsStale hagrees hrun hquiet).1.mp hdisagrees⟩

end AccountSystem

end Jukebox
