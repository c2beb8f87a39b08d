import Jukebox.Session.Account

/-!
# Logins and refreshes in flight

Logins and refreshes begin at any time, and of all in flight any one may take the next
step; the answers of the catalog may be any.  `AccountSystem.Step` is one step of the
whole, and `AccountSystem.Reaches` any number.
-/

namespace Jukebox

/-- What may be asked of an account. -/
inductive AccountRequest where
  | refresh
  /-- A picture for a login. -/
  | startQr
  /-- Wait until the picture with this key is confirmed, and ask at most so often. -/
  | waitQr (key : String) (limit : Nat)
  /-- A login by phone; without a code one is sent. -/
  | sms (phone : String) (code : Option String)
deriving DecidableEq, Repr

namespace AccountRequest

/-- The first stage of a request. -/
def stage : AccountRequest → AccountStage
  | .refresh => Account.refresh
  | .startQr => Account.startQr
  | .waitQr key limit => Account.waitQr key limit
  | .sms phone code => Account.sms phone code

end AccountRequest

/-- An account, the requests under way by their numbers, and how others have ended. -/
structure AccountSystem where
  account : Account
  inFlight : List (Nat × AccountStage)
  /-- The number of the next request. -/
  fresh : Nat
  ended : List (Nat × Except Error AccountOutcome)

namespace AccountSystem

/-- An account on which nothing runs. -/
def start (account : Account) : AccountSystem := ⟨account, [], 0, []⟩

/-- A request comes to a stage; one that has ended leaves. -/
def moved (s : AccountSystem) (op : Nat) : AccountStage → AccountSystem
  | .finished result =>
    { s with
      inFlight := s.inFlight.filter (·.1 != op)
      ended := s.ended ++ [(op, result)] }
  | stage =>
    { s with inFlight := s.inFlight.map fun (op', old) => (op', if op' = op then stage else old) }

/-- A request comes in. -/
def arrive (s : AccountSystem) (request : AccountRequest) : AccountSystem :=
  { s with
    inFlight := s.inFlight ++ [(s.fresh, request.stage)]
    fresh := s.fresh + 1 }.moved s.fresh request.stage

/-- A request that waits for no answer goes on. -/
def proceed? (s : AccountSystem) (op : Nat) : Option AccountSystem :=
  match s.inFlight.lookup op with
  | none => none
  | some stage =>
    match stage.call? with
    | some _ => none
    | none =>
      let (account, next) := stage.proceed s.account
      some ({ s with account }.moved op next)

/-- A request gets the answer that it waits for. -/
def answer? (malformed : String) (s : AccountSystem) (op : Nat) (reply : ApiReply) :
    Option AccountSystem :=
  match s.inFlight.lookup op with
  | none => none
  | some stage =>
    match stage.call? with
    | none => none
    | some _ => some (s.moved op (stage.answered malformed reply))

/-- What may happen next: a request comes in, one goes on, or one is answered. -/
inductive Step (malformed : String) : AccountSystem → AccountSystem → Prop
  | arrive (s : AccountSystem) (request : AccountRequest) : Step malformed s (s.arrive request)
  | proceed {s t : AccountSystem} (op : Nat) (h : s.proceed? op = some t) : Step malformed s t
  | answer {s t : AccountSystem} (op : Nat) (reply : ApiReply)
      (h : s.answer? malformed op reply = some t) : Step malformed s t

/-- Any number of steps. -/
inductive Reaches (malformed : String) (s : AccountSystem) : AccountSystem → Prop
  | refl : Reaches malformed s s
  | tail {t u : AccountSystem} (h : Reaches malformed s t) (step : Step malformed t u) :
      Reaches malformed s u

/-- Nothing runs. -/
def Quiet (s : AccountSystem) : Prop := s.inFlight = []

end AccountSystem

end Jukebox
