import Jukebox.Config.Store
import Jukebox.Session.Status
import Jukebox.Text.Base64

/-!
# Logging in and staying logged in

A login by picture asks again and again whether the picture was confirmed, a login by
phone sends a code and checks it, and a refresh asks for a fragment of the cookie.  Each of
them is taken apart into stages between which others may run: waiting for an answer,
changing the session, changing the settings in memory, copying them, and writing the copy
into the file.
-/

namespace Jukebox

/-- What logins and refreshes change: the session, the settings, and the files. -/
structure Account where
  session : Session
  config : ConfigStore
  files : Files

/-- A question to the catalog. -/
inductive ApiCall where
  | qrKey
  | qrImage (key : String)
  | qrCheck (key : String)
  | sendCaptcha (phone : String)
  | verifyCaptcha (phone code : String)
  | loginCellphone (phone code : String)
  | refresh (headers : Headers)
deriving DecidableEq, Repr

/-- An answer to a question. -/
inductive ApiReply where
  /-- A key or a picture. -/
  | text (answer : Except Error String)
  /-- An answer about a login. -/
  | status (answer : Except Error ApiStatus)
  /-- A fragment of a cookie, or a refusal. -/
  | fragment (answer : Except Error (Option String))

/-- How a login or a refresh can end well. -/
inductive AccountOutcome where
  /-- A picture to be confirmed, under its key. -/
  | challenge (key : String) (picture : List UInt8)
  | confirmed
  | codeSent
  | loggedIn
  | refreshed
  /-- The catalog refused to refresh. -/
  | rejected
  /-- The catalog could not be asked. -/
  | failed
  /-- There is nothing to refresh. -/
  | skipped
deriving DecidableEq, Repr

/-- Where a login or a refresh stands. -/
inductive AccountStage where
  /-- About to look at the session, to refresh it. -/
  | beginRefresh
  | awaitFragment (headers : Headers)
  | awaitKey
  | awaitImage (key : String)
  /-- Waiting for an answer about a picture, the `attempt`-th of `limit`. -/
  | awaitCheck (key : String) (attempt limit : Nat)
  /-- Resting after an answer that settled nothing. -/
  | rest (key : String) (attempt limit : Nat)
  | awaitCaptcha (phone : String)
  | awaitVerification (phone code : String)
  | awaitLogin (phone code : String)
  /-- About to take a cookie into the session. -/
  | takeCookie (raw : String) (mode : LoginMode) (outcome : AccountOutcome)
  /-- About to lay a fragment over the cookie of the session. -/
  | layFragment (fragment : String)
  /-- About to change the settings in memory. -/
  | keepCookie (cookie : String) (qr : Bool) (outcome : AccountOutcome)
  /-- About to copy the settings. -/
  | copySettings (outcome : AccountOutcome)
  /-- About to write a copy of the settings into the file. -/
  | writeSettings (copy : Config) (outcome : AccountOutcome)
  | finished (result : Except Error AccountOutcome)

/-- The bytes of a picture: base64 text, behind the first comma if there is one.
`malformed` says what is wrong with other text. -/
def decodePicture (malformed : String) (link : String) : Except Error (List UInt8) :=
  let encoded := match Text.cutAt ',' link.toList with
    | some (_, rest) => rest
    | none => link.toList
  match Base64.decode? (Text.trimmed encoded) with
  | some bytes => .ok bytes
  | none => .error (.login ("imagen QR inválida: " ++ malformed))

namespace AccountStage

/-- The question whose answer a stage waits for. -/
def call? : AccountStage → Option ApiCall
  | .awaitFragment headers => some (.refresh headers)
  | .awaitKey => some .qrKey
  | .awaitImage key => some (.qrImage key)
  | .awaitCheck key _ _ => some (.qrCheck key)
  | .awaitCaptcha phone => some (.sendCaptcha phone)
  | .awaitVerification phone code => some (.verifyCaptcha phone code)
  | .awaitLogin phone code => some (.loginCellphone phone code)
  | _ => none

/-- The stage after an answer about a picture. -/
def afterCheck (key : String) (attempt limit : Nat) : Except Error ApiStatus → AccountStage
  | .error _ => .rest key attempt limit
  | .ok status =>
    if status.code = ApiStatus.qrConfirmed then
      match status.usableCookie? with
      | some cookie => .takeCookie cookie .qr .confirmed
      | none => .finished (.error (.login "el API no devolvió cookie"))
    else if status.code = ApiStatus.qrExpired then .finished (.error (.loginTimeout attempt))
    else .rest key attempt limit

/-- The stage after an answer to the code that was typed. -/
def afterLogin : Except Error ApiStatus → AccountStage
  | .error e => .finished (.error e)
  | .ok status =>
    match status.usableCookie? with
    | some cookie =>
      if status.code = ApiStatus.success then .takeCookie cookie .password .loggedIn
      else .finished (.error (.login status.describe))
    | none => .finished (.error (.login status.describe))

/-- The stage after an answer that has to be a success. -/
def afterSuccess (next : AccountStage) : Except Error ApiStatus → AccountStage
  | .error e => .finished (.error e)
  | .ok status =>
    if status.code = ApiStatus.success then next
    else .finished (.error (.login status.describe))

/-- The stage after a refresh was answered. -/
def afterFragment : Except Error (Option String) → AccountStage
  | .ok (some fragment) => .layFragment fragment
  | .ok none => .finished (.ok .rejected)
  | .error _ => .finished (.ok .failed)

/-- The stage after the answer to its question.  `malformed` says what is wrong with a
picture that cannot be decoded; an answer of another kind changes nothing. -/
def answered (malformed : String) (stage : AccountStage) (reply : ApiReply) : AccountStage :=
  match stage, reply with
  | .awaitFragment _, .fragment answer => afterFragment answer
  | .awaitKey, .text (.ok key) => .awaitImage key
  | .awaitKey, .text (.error e) => .finished (.error e)
  | .awaitImage key, .text (.ok link) =>
    match decodePicture malformed link with
    | .ok picture => .finished (.ok (.challenge key picture))
    | .error e => .finished (.error e)
  | .awaitImage _, .text (.error e) => .finished (.error e)
  | .awaitCheck key attempt limit, .status answer => afterCheck key attempt limit answer
  | .awaitCaptcha _, .status answer => afterSuccess (.finished (.ok .codeSent)) answer
  | .awaitVerification phone code, .status answer => afterSuccess (.awaitLogin phone code) answer
  | .awaitLogin _ _, .status answer => afterLogin answer
  | stage, _ => stage

/-- A stage that waits for no answer does its one thing. -/
def proceed (account : Account) : AccountStage → Account × AccountStage
  | .beginRefresh =>
    if account.session.loginMode.isQr || account.session.cookie.isEmpty then
      (account, .finished (.ok .skipped))
    else (account, .awaitFragment account.session.headers)
  | .rest key attempt limit =>
    if attempt < limit then (account, .awaitCheck key (attempt + 1) limit)
    else (account, .finished (.error (.loginTimeout limit)))
  | .takeCookie raw mode outcome =>
    let session := account.session.logIn raw mode
    ({ account with session }, .keepCookie session.cookie mode.isQr outcome)
  | .layFragment fragment =>
    let session := account.session.refresh fragment
    ({ account with session }, .keepCookie session.cookie false .refreshed)
  | .keepCookie cookie qr outcome =>
    ({ account with
        config := { account.config with current := account.config.current.withSession cookie qr } },
      .copySettings outcome)
  | .copySettings outcome => (account, .writeSettings account.config.current outcome)
  | .writeSettings copy outcome =>
    let files := (({ account.config with current := copy } : ConfigStore).save account.files).1
    ({ account with files }, .finished (.ok outcome))
  | stage => (account, stage)

/-- No more than so many stages follow. -/
def weight : AccountStage → Nat
  | .finished _ => 0
  | .writeSettings _ _ => 1
  | .copySettings _ => 2
  | .keepCookie _ _ _ => 3
  | .takeCookie _ _ _ => 4
  | .layFragment _ => 4
  | .awaitFragment _ => 5
  | .beginRefresh => 6
  | .awaitLogin _ _ => 5
  | .awaitVerification _ _ => 6
  | .awaitCaptcha _ => 1
  | .awaitImage _ => 1
  | .awaitKey => 2
  | .rest _ attempt limit => 5 + 2 * (limit - attempt)
  | .awaitCheck _ attempt limit => 6 + 2 * (limit - attempt)

end AccountStage

/-- What is known of a run: the account, the questions asked, how often it rested, and how
it ended. -/
structure AccountRun where
  account : Account
  calls : List ApiCall
  rests : Nat
  result : Except Error AccountOutcome

namespace Account

/-- Run on from a stage while nothing else runs; `respond` answers a question, given those
asked before it. -/
def runFor (malformed : String) (respond : List ApiCall → ApiCall → ApiReply) :
    Nat → Account → List ApiCall → Nat → AccountStage → AccountRun
  | _, account, calls, rests, .finished result => ⟨account, calls, rests, result⟩
  | 0, account, calls, rests, _ => ⟨account, calls, rests, .error (.other "")⟩
  | fuel + 1, account, calls, rests, stage =>
    match stage.call? with
    | some call =>
      runFor malformed respond fuel account (calls ++ [call]) rests
        (stage.answered malformed (respond calls call))
    | none =>
      let (account, next) := stage.proceed account
      let rests := match stage with
        | .rest _ _ _ => rests + 1
        | _ => rests
      runFor malformed respond fuel account calls rests next

/-- Run a login or a refresh from its first stage to its end. -/
def run (malformed : String) (respond : List ApiCall → ApiCall → ApiReply) (account : Account)
    (calls : List ApiCall) (stage : AccountStage) : AccountRun :=
  runFor malformed respond stage.weight account calls 0 stage

/-- The first stage of a login by picture. -/
def startQr : AccountStage := .awaitKey

/-- The first stage of waiting for a picture to be confirmed. -/
def waitQr (key : String) (limit : Nat) : AccountStage :=
  if limit = 0 then .finished (.error (.loginTimeout 0)) else .awaitCheck key 1 limit

/-- A number of ASCII digits. -/
def isDigits (s : String) : Bool := s.toList.all Text.isAsciiDigit

/-- The first stage of a login by phone: without a code one is sent. -/
def sms (phone : String) (code : Option String) : AccountStage :=
  if phone.isEmpty || !isDigits phone then
    .finished (.error (.login ("teléfono inválido: " ++ phone)))
  else
    match code with
    | none => .awaitCaptcha phone
    | some code =>
      if code.utf8ByteSize != 4 || !isDigits code then
        .finished (.error (.login "el código debe tener 4 dígitos"))
      else .awaitVerification phone code

/-- The first stage of a refresh. -/
def refresh : AccountStage := .beginRefresh

end Account

/-- How often a picture is asked about, and the seconds between two questions. -/
structure Polling where
  attempts : Nat
  seconds : Nat
deriving DecidableEq, Repr

namespace Polling

/-- Every second for two minutes. -/
def standard : Polling := ⟨120, 1⟩

end Polling

end Jukebox
