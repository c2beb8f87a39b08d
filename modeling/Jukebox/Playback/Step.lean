import Jukebox.Playback.Stage

/-!
# One step of an operation

The controller is the guarded state with what stands around it: the lock, the gate, the
token of the latest cascade or stop, the serials, the session and the settings.  A step
takes one operation from a stage to the next.  It is taken on a signal: that the operation
may go on, that its token was taken away, or an answer.  All that happens outside in a step
comes back as events.
-/

namespace Jukebox

/-- The state of playback and what stands around it. -/
structure Controller where
  state : PlaybackState
  /-- The operation that holds the lock while it waits. -/
  lockedBy : Option Nat
  /-- The operation inside the gate. -/
  gateHeldBy : Option Nat
  /-- The only token that has not been taken away. -/
  token : Nat
  /-- The serial of the latest start. -/
  serial : Nat
  account : Account
  /-- The loudness a track starts with. -/
  volume : Single
  /-- How many failures of a cascade are told. -/
  reportLimit : Nat

/-- What lets an operation go on. -/
inductive Signal where
  /-- What it waits for is free. -/
  | go
  /-- Its token was taken away. -/
  | cancelled
  | resolved (reply : Except Error (Option ResolvedTrack))
  | played (reply : Except Error Unit)

/-- What a step leads to: the controller, the next stage, and what happened outside. -/
abbrev Progress := Controller × Stage × List PlaybackEvent

namespace Controller

/-- How often going back tries another track. -/
def maxPreviousAttempts : Nat := 10

/-- A controller with the settings of an account. -/
def start (account : Account) (self : Nat) (words : RandomWords) : Controller where
  state := .start account.config.current.playMode self account.config.current.autoPauseEnabled
    words
  lockedBy := none
  gateHeldBy := none
  token := 0
  serial := 0
  account
  volume := account.config.current.volume.start
  reportLimit := account.config.current.maxFailureReports

/-- The controller after a critical section. -/
def update (c : Controller) (f : PlaybackState → PlaybackState) : Controller :=
  { c with state := f c.state }

/-- A token was taken away. -/
def isCancelled (c : Controller) (token : Nat) : Bool := token != c.token

/-- Open a cascade, and take the token away from the one before. -/
def openCascade (c : Controller) (ended : Option Nat) : Controller × Cascade :=
  let id := c.state.cascadeCount + 1
  let token := c.token + 1
  ({ c with state := { c.state with cascadeCount := id, cascade := some id }, token },
    ⟨id, token, ended⟩)

/-- Open a cascade and look for a track. -/
def beginCascade (c : Controller) (ended : Option Nat) : Controller × Stage :=
  let (c, cascade) := c.openCascade ended
  (c, .measure cascade)

/-- Forget the cascade, and take its token away. -/
def cancelPending (c : Controller) : Controller :=
  { c with state := { c.state with cascade := none }, token := c.token + 1 }

/-- Look for a track if nothing plays or is about to; otherwise tell the place in the
queue. -/
def beginIfIdle (c : Controller) : Controller × Stage :=
  if c.state.isIdle then c.beginCascade none
  else (c, .finished (.outcome (.ok (.queued c.state.queue.length))))

/-- The attempts of a cascade are over. -/
def endSearch (search : Search) (outcome : PlayOutcome) : Stage × List PlaybackEvent :=
  (.settle search.cascade outcome, search.reporter.summary)

/-- The next attempt of a cascade, if it may make one. -/
def nextAttempt (c : Controller) (search : Search) : Stage × List PlaybackEvent :=
  if search.attempt < search.budget then
    if c.isCancelled search.cascade.token then
      (.close search.cascade (.ok .superseded) none, [])
    else (.take search, [])
  else endSearch search .exhausted

/-- A start was overtaken. -/
def superseded (l : Launch) : Stage :=
  match l.purpose with
  | .search s generation => .giveBack s.cascade l.track generation
  | .request cascade => .close cascade (.ok .superseded) none
  | .goBack cascade _ => .putBack cascade l.track

/-- A start failed. -/
def failed (l : Launch) (e : Error) : Stage × List PlaybackEvent :=
  match l.purpose with
  | .search s _ =>
    let (reporter, told) := s.reporter.record l.track e
    (.reported { s with attempt := s.attempt + 1, reporter }, told)
  | .request cascade =>
    (.close cascade (.error e) (some (FailureReporter.failureText l.track e)), [])
  | .goBack cascade attempts =>
    if attempts < maxPreviousAttempts then (.takeBack cascade attempts, [])
    else (.close cascade (.error (.exhaustedRetries attempts)) none, [])

/-- A start went well. -/
def succeeded (l : Launch) : Stage × List PlaybackEvent :=
  match l.purpose with
  | .search s _ => endSearch s .started
  | .request cascade => (.close cascade (.ok .started) none, [])
  | .goBack cascade _ => (.close cascade (.ok .started) none, [])

/-- The queue with the track that was displaced: at its head after going back, in the
history otherwise. -/
def displace (purpose : Purpose) (queue : Queue) : Option PlaybackRecord → Queue
  | none => queue
  | some record =>
    match purpose with
    | .goBack _ _ => queue.addFirst record.track
    | _ => queue.remember record.track

/-- An answer without a change. -/
def answer (c : Controller) (answer : Answer) : Progress := (c, .finished answer, [])

/-- Ask the player to rest or to go on, and keep the lock meanwhile. -/
def askToPause (c : Controller) (op : Nat) (paused : Bool) (stage : Stage) : Progress :=
  ({ c with lockedBy := some op }, stage, [.setPaused paused])

/-- A report of the player about the track with a serial; `told` is said if that is the
current one. -/
def signalled (c : Controller) (serial : Nat) (told : Track → List PlaybackEvent) : Progress :=
  match c.state.record with
  | some record =>
    if record.serial = serial then
      let (c, stage) := c.beginCascade (some serial)
      (c, stage, told record.track)
    else c.answer (.outcome (.ok .superseded))
  | none => c.answer (.outcome (.ok .superseded))

/-- The first critical section of a request. -/
def begin (c : Controller) (op : Nat) : Request → Progress
  | .playNext =>
    let (c, stage) := c.beginCascade none
    (c, stage, [])
  | .play =>
    match c.state.record with
    | some record =>
      if record.paused then c.askToPause op false .resuming
      else c.answer (.outcome (.ok .alreadyPlaying))
    | none => (c, .begin .playNext, [])
  | .playTrack track offset =>
    let (c, cascade) := c.openCascade none
    (c, .ask ⟨track, offset, 0, .request cascade⟩, [])
  | .enqueue track =>
    let c := c.update fun s => { s with queue := s.queue.addLast { track with inPlaylist := true } }
    let (c, stage) := c.beginIfIdle
    (c, stage, [])
  | .previous =>
    let (c, cascade) := c.openCascade none
    (c, .takeBack cascade 0, [])
  | .stop bySystem =>
    if bySystem then
      let (c, stage) := c.beginCascade c.state.serial?
      (c, stage, [])
    else (c.cancelPending, .stopAdmission false, [])
  | .ended serial => c.signalled serial fun _ => []
  | .failed serial _ =>
    c.signalled serial fun track =>
      [.say ("❌ Falló la reproducción de " ++ track.fullName ++ ", saltando")]
  | .togglePause =>
    match c.state.record with
    | some record => c.askToPause op (!record.paused) (.toggling (!record.paused))
    | none => c.answer (.toggled (.ok none))
  | .presence event roster =>
    let (presence, decision) := c.state.presence.apply event roster
    let c := c.update fun s => { s with presence }
    match decision, c.state.record with
    | some paused, some record =>
      if record.paused = paused then c.answer (.checked (.ok ()))
      else c.askToPause op paused (.adjusting paused)
    | _, _ => c.answer (.checked (.ok ()))
  | .detach =>
    (c.update fun s => { s with presence := s.presence.reset }, .cancelPending, [])
  | .setMode mode =>
    let c := c.update fun s => { s with mode := { s.mode with mode } }
    let (config, files, _) := c.account.config.updateMode c.account.files mode
    { c with account := { c.account with config, files } }.answer (.mode mode)
  | .mode => c.answer (.mode c.state.mode.mode)
  | .exchange i j =>
    match c.state.queue.exchange i j with
    | .ok queue => (c.update fun s => { s with queue }).answer (.checked (.ok ()))
    | .error e => c.answer (.checked (.error e))
  | .remove index =>
    match c.state.queue.remove index with
    | .ok (track, queue) => (c.update fun s => { s with queue }).answer (.removed (.ok track))
    | .error e => c.answer (.removed (.error e))
  | .shuffle => (c.update PlaybackState.shuffle).answer .done
  | .clear => (c.update PlaybackState.clear).answer .done
  | .item index => c.answer (.item (c.state.queue.get? index))
  | .length => c.answer (.count c.state.queue.length)
  | .snapshot => c.answer (.snapshot c.state.snapshot)
  | .restore snapshot how =>
    (c.update fun s => s.restore snapshot how).answer (.count snapshot.tracks.length)
  | .setPlaylist playlist tracks =>
    let (c, stage) := (c.update fun s => s.setPlaylist playlist tracks).beginCascade none
    (c, stage, [])
  | .addPlaylist tracks =>
    let c := c.update fun s => { s with queue := s.queue.addAll tracks }
    let (c, stage) := c.beginIfIdle
    (c, stage, [])
  | .status limit =>
    c.answer (.status {
      current := c.state.record
      mode := c.state.mode
      length := c.state.queue.length
      upcoming := c.state.queue.peek limit
      playlist := c.state.playlist })

/-- What is said at the end of a cascade. -/
def closingWords : PlayOutcome → List PlaybackEvent
  | .queueEmpty => [.say "📭 La cola está vacía"]
  | .exhausted => [.say "⚠️ Ninguna canción de la cola se pudo reproducir"]
  | _ => []

/-- How the attempts of a cascade ended, once the queue is seen again. -/
def finalOutcome (s : PlaybackState) (outcome : PlayOutcome) : PlayOutcome :=
  if outcome = .exhausted ∧ s.queue.isEmpty then .queueEmpty else outcome

/-- A critical section, with the lock free. -/
def locked (c : Controller) (op : Nat) : Stage → Progress
  | .begin request => c.begin op request
  | .measure cascade =>
    let search : Search :=
      ⟨cascade, Nat.max c.state.queue.length 1, 0, .start c.reportLimit⟩
    let (stage, told) := c.nextAttempt search
    (c, stage, told)
  | .take search =>
    match c.state.takeNext? with
    | some (track, state) =>
      ({ c with state },
        .ask ⟨track, none, search.attempt, .search search c.state.generation⟩, [])
    | none =>
      let (stage, told) := endSearch search .queueEmpty
      (c.update (·.closeCascade search.cascade), stage, told)
  | .giveBack cascade track generation =>
    (c.update (·.giveBack track generation), .close cascade (.ok .superseded) none, [])
  | .settle cascade outcome =>
    let c := c.update (·.closeCascade cascade)
    let outcome := finalOutcome c.state outcome
    (c, .close cascade (.ok outcome) none, closingWords outcome)
  | .close cascade result report =>
    (c.update (·.closeCascade cascade), .finished (.outcome result),
      report.toList.map .say)
  | .takeBack cascade attempts =>
    match c.state.queue.takeBack? with
    | some (track, queue) =>
      (c.update fun s => { s with queue },
        .ask ⟨track, none, attempts, .goBack cascade (attempts + 1)⟩, [])
    | none =>
      let error := if attempts = 0 then Error.noPreviousTrack else .exhaustedRetries attempts
      (c, .close cascade (.error error) none, [])
  | .putBack cascade track =>
    (c.update fun s => { s with queue := s.queue.remember track },
      .close cascade (.ok .superseded) none, [])
  | .install l r serial =>
    let record := c.state.newRecord r l.retries serial
    (c.update fun s => { s with record := some record },
      .starting l r c.state.record record.paused,
      [.start ⟨r.streamUrl, l.track.source, l.offset⟩ serial c.volume])
  | .rollBack l displaced e =>
    let c := { c.update fun s => { s with record := displaced } with gateHeldBy := none }
    let (stage, told) := failed l e
    (c, stage, told)
  | .commit l r displaced =>
    let c := { c.update fun s =>
      { s with queue := displace l.purpose (s.queue.refresh r.track) displaced }
      with gateHeldBy := none }
    let (stage, told) := succeeded l
    (c, stage, .started (c.state.nowPlaying r.track) :: told)
  | .cancelPending => (c.cancelPending, .stopAdmission true, [])
  | .retire detaching => (c.update PlaybackState.retire, .halting detaching, [.stop])
  | stage => (c, stage, [])

/-- Through the gate, while nobody is inside. -/
def admitted (c : Controller) (op : Nat) : Stage → Progress
  | .admission l r =>
    if c.isCancelled l.token then (c, superseded l, [])
    else
      ({ c with serial := c.serial + 1, gateHeldBy := some op },
        .install l r (c.serial + 1), [])
  | .stopAdmission detaching => ({ c with gateHeldBy := some op }, .retire detaching, [])
  | stage => (c, stage, [])

/-- The answer of the resolver. -/
def resolved (l : Launch) : Except Error (Option ResolvedTrack) → Stage × List PlaybackEvent
  | .ok (some r) => (.admission l r, [])
  | .ok none => failed l (.resolution (l.track.displayName ++ " no está disponible"))
  | .error e => failed l e

/-- The answer of a stop. -/
def stopAnswer (detaching : Bool) : Answer :=
  if detaching then .checked (.ok ()) else .outcome (.ok .stopped)

/-- The answer of the player. -/
def played (c : Controller) (stage : Stage) (reply : Except Error Unit) : Progress :=
  match stage, reply with
  | .starting l _ displaced _, .error e => (c, .rollBack l displaced e, [])
  | .starting l r displaced paused, .ok () =>
    if paused then (c, .pausing l r displaced, [.setPaused true])
    else (c, .commit l r displaced, [])
  | .pausing l r displaced, _ => (c, .commit l r displaced, [])
  | .halting detaching, _ =>
    ({ c with gateHeldBy := none }, .finished (stopAnswer detaching), [])
  | .resuming, .ok () =>
    ({ c.update (·.setPaused false) with lockedBy := none },
      .finished (.outcome (.ok .resumed)), [])
  | .resuming, .error e => ({ c with lockedBy := none }, .finished (.outcome (.error e)), [])
  | .toggling paused, .ok () =>
    ({ c.update (·.setPaused paused) with lockedBy := none },
      .finished (.toggled (.ok (some paused))), [])
  | .toggling _, .error e => ({ c with lockedBy := none }, .finished (.toggled (.error e)), [])
  | .adjusting paused, .ok () =>
    ({ c.update (·.setPaused paused) with lockedBy := none },
      .finished (.checked (.ok ())), [])
  | .adjusting _, .error e => ({ c with lockedBy := none }, .finished (.checked (.error e)), [])
  | stage, _ => (c, stage, [])

/-- The next step of an operation on a signal; `none` where the signal cannot come. -/
def step? (c : Controller) (op : Nat) (stage : Stage) (signal : Signal) : Option Progress :=
  match stage.need, signal with
  | .lock, .go => if c.lockedBy.isNone then some (c.locked op stage) else none
  | .gate, .go => if c.gateHeldBy.isNone then some (c.admitted op stage) else none
  | .nothing, .go =>
    match stage with
    | .ask l =>
      match l.direct? with
      | some r => some (c, .admission l r, [])
      | none => some (c, .resolving l, [.resolve l.track c.account.session.headers])
    | .reported search =>
      let (next, told) := c.nextAttempt search
      some (c, next, told)
    | _ => none
  | .nothing, .cancelled | .resolver, .cancelled =>
    match stage with
    | .ask l | .resolving l => if c.isCancelled l.token then some (c, superseded l, []) else none
    | _ => none
  | .resolver, .resolved reply =>
    match stage with
    | .resolving l =>
      let (next, told) := resolved l reply
      some (c, next, told)
    | _ => none
  | .player, .played reply => some (c.played stage reply)
  | _, _ => none

end Controller

end Jukebox
