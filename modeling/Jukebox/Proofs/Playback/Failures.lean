import Jukebox.Proofs.Playback.Order

/-!
# What is told of the tracks that fail

A cascade tells of as many failures as the limit allows, each when it comes, and of the others
only how many they were; in the end it says whether it found nothing.  It tries no more tracks
than the queue had when it began, and one if the queue was empty.

Whatever other operations do meanwhile, the telling depends on nothing but the answers that the
cascade gets.  What it has to account for is gathered along a run (`System.ledger`), and what it
has told of that is known at each of its stages (`Controller.Along`).
-/

namespace Jukebox

/-- Something is told to the chat. -/
def PlaybackEvent.isWord : PlaybackEvent → Bool
  | .say _ | .started _ => true
  | _ => false

/-- What an operation tells the chat, if it is this entry. -/
def LogEntry.wordOf? (op : Nat) : LogEntry → Option PlaybackEvent
  | .event op' e => if op' = op ∧ e.isWord then some e else none
  | .answered _ _ => none

theorem PlaybackEvent.OnlySays.words {told : List PlaybackEvent} (h : OnlySays told) :
    told.filter isWord = told := by
  rw [List.filter_eq_self]
  intro event hevent
  obtain ⟨text, rfl⟩ := h event hevent
  rfl

/-! ## The reporter -/

namespace FailureReporter

/-- What is told of failures one by one: the full name of each track, and the error. -/
def failureWords (limit : Nat) (failed : List (Track × Error)) : List PlaybackEvent :=
  (failed.take limit).map fun (track, e) =>
    .say ("❌ No se pudo reproducir " ++ track.fullName ++ ": " ++ e.message)

/-- The reporter once so many tracks have failed. -/
def past (limit count : Nat) : FailureReporter := ⟨limit, min count limit, count - limit⟩

variable {limit : Nat} {failed : List (Track × Error)} {track : Track} {e : Error}

theorem start_eq_past (limit : Nat) : start limit = past limit 0 := by
  simp [start, past]

theorem record_past_of_lt {count : Nat} (h : count < limit) :
    (past limit count).record track e =
      (past limit (count + 1), [.say (failureText track e)]) := by
  have hroom : (past limit count).reported < (past limit count).limit :=
    Nat.lt_of_le_of_lt (Nat.min_le_left _ _) h
  rw [record, if_pos hroom]
  simp only [past, Prod.mk.injEq, mk.injEq, and_true, true_and]
  omega

theorem record_past_of_le {count : Nat} (h : limit ≤ count) :
    (past limit count).record track e = (past limit (count + 1), []) := by
  have hfull : ¬(past limit count).reported < (past limit count).limit :=
    Nat.not_lt.mpr (Nat.le_min.mpr ⟨h, Nat.le_refl limit⟩)
  rw [record, if_neg hfull]
  simp only [past, Prod.mk.injEq, mk.injEq, and_true, true_and]
  omega

/-- One more failure is told as long as the limit allows. -/
theorem record_past (limit : Nat) (failed : List (Track × Error)) (track : Track) (e : Error) :
    ((past limit failed.length).record track e).1 = past limit (failed.length + 1) ∧
      failureWords limit failed ++ ((past limit failed.length).record track e).2 =
        failureWords limit (failed ++ [(track, e)]) := by
  rcases Nat.lt_or_ge failed.length limit with hlimit | hlimit
  · have hall : (failed ++ [(track, e)]).length ≤ limit := by
      rw [List.length_append]
      exact hlimit
    rw [record_past_of_lt hlimit, failureWords, failureWords, List.take_of_length_le hall,
      List.take_of_length_le (Nat.le_of_lt hlimit), List.map_append]
    exact ⟨rfl, rfl⟩
  · rw [record_past_of_le hlimit, failureWords, failureWords,
      List.take_append_of_le_length hlimit, List.append_nil]
    exact ⟨rfl, rfl⟩

theorem summary_past (limit count : Nat) : (past limit count).summary =
    if limit < count then [.say s!"⚠️ Otras {count - limit} canciones también fallaron"]
    else [] := by
  simp only [summary, past, Nat.sub_pos_iff_lt]

end FailureReporter

/-! ## The account of a cascade -/

/-- What a cascade has to account for, and what it tells. -/
structure Ledger where
  /-- The tracks that failed, each with the error, the first one first. -/
  failed : List (Track × Error)
  /-- The tracks that were taken from the queue to try them. -/
  tried : List Track
  /-- What was told to the chat. -/
  words : List PlaybackEvent
  /-- The lengths of the queue with which attempts were granted. -/
  lengths : List Nat

/-- A cascade that was not overtaken has told of all its failures; in the end it says this. -/
structure Ledger.Accounts (g : Ledger) (limit : Nat) (outcome : PlayOutcome)
    (closing : List PlaybackEvent) : Prop where
  settled : outcome = .started ∨ outcome = .exhausted ∨ outcome = .queueEmpty
  words : ∃ started : List NowPlaying, started.length = (if outcome = .started then 1 else 0) ∧
    g.words = FailureReporter.failureWords limit g.failed ++ started.map .started ++
      (if limit < g.failed.length then
        [.say s!"⚠️ Otras {g.failed.length - limit} canciones también fallaron"] else []) ++
      closing
  tried : ∃ last : List Track, last.length = (if outcome = .started then 1 else 0) ∧
    g.tried = g.failed.map Prod.fst ++ last
  lengths : ∃ length, g.lengths = [length] ∧ g.tried.length ≤ max 1 length

/-- Once the queue is seen again, the cascade says how it has ended. -/
theorem Ledger.Accounts.final {g : Ledger} {limit : Nat} {outcome : PlayOutcome}
    (h : g.Accounts limit outcome []) (s : PlaybackState) :
    let last := Controller.finalOutcome s outcome
    Ledger.Accounts { g with words := g.words ++ Controller.closingWords last } limit last
      (Controller.closingWords last) := by
  intro last
  obtain ⟨hsettled, ⟨started, hstarted, hwords⟩, ⟨tried, hlast, htried⟩, hlengths⟩ := h
  have hsame : (last = .started ↔ outcome = .started) ∧
      (last = .started ∨ last = .exhausted ∨ last = .queueEmpty) := by
    simp only [last, Controller.finalOutcome]
    split
    · next hempty => simp [hempty.1]
    · exact ⟨.rfl, hsettled⟩
  simp only [← hsame.1] at hstarted hlast
  refine ⟨hsame.2, ⟨started, hstarted, ?_⟩, ⟨tried, hlast, htried⟩, hlengths⟩
  rw [hwords, List.append_nil]

namespace Stage

/-- The track that fails on the signal, and why. -/
def failure? : Stage → Signal → Option (Track × Error)
  | .resolving l, .resolved (.ok none) =>
    some (l.track, .resolution (l.track.displayName ++ " no está disponible"))
  | .resolving l, .resolved (.error e) | .starting l _ _ _, .played (.error e) =>
    some (l.track, e)
  | _, _ => none

/-- The stages of an attempt that has not failed. -/
inductive Tries (l : Launch) : Stage → Prop
  | ask : Tries l (.ask l)
  | resolving : Tries l (.resolving l)
  | admission (r : ResolvedTrack) : Tries l (.admission l r)
  | install (r : ResolvedTrack) (serial : Nat) : Tries l (.install l r serial)
  | starting (r : ResolvedTrack) (displaced : Option PlaybackRecord) (paused : Bool) :
      Tries l (.starting l r displaced paused)
  | pausing (r : ResolvedTrack) (displaced : Option PlaybackRecord) :
      Tries l (.pausing l r displaced)
  | commit (r : ResolvedTrack) (displaced : Option PlaybackRecord) :
      Tries l (.commit l r displaced)

end Stage

namespace Controller

/-- The track that the next step of a cascade takes from the queue to try it. -/
def tries? (c : Controller) : Stage → Option Track
  | .take _ => c.state.takeNext?.map Prod.fst
  | _ => none

/-- The length of the queue for which the next step grants attempts. -/
def grants? (c : Controller) : Stage → Option Nat
  | .measure _ => some c.state.queue.length
  | _ => none

end Controller

/-- The ledger after a step. -/
def Ledger.add (g : Ledger) (c : Controller) (stage : Stage) (signal : Signal)
    (told : List PlaybackEvent) : Ledger where
  failed := g.failed ++ (stage.failure? signal).toList
  tried := g.tried ++ (c.tries? stage).toList
  words := g.words ++ told.filter PlaybackEvent.isWord
  lengths := g.lengths ++ (c.grants? stage).toList

theorem Ledger.add_of_silent {g : Ledger} {c : Controller} {stage : Stage} {signal : Signal}
    {told : List PlaybackEvent} (hfailure : stage.failure? signal = none)
    (htries : c.tries? stage = none) (hgrants : c.grants? stage = none) :
    g.add c stage signal told =
      { g with words := g.words ++ told.filter PlaybackEvent.isWord } := by
  simp only [add, hfailure, htries, hgrants, Option.toList_none, List.append_nil]

namespace Controller

open FailureReporter (failureWords past)

variable {c d : Controller} {op limit token length : Nat} {stage next : Stage} {signal : Signal}
  {told : List PlaybackEvent} {failures : List (Track × Error)} {s : Search} {l : Launch}
  {g : Ledger}

/-- A cascade with the newest token has counted its failures. -/
structure Counted (limit token length : Nat) (s : Search) (failures : List (Track × Error)) :
    Prop where
  token : s.cascade.token = token
  reporter : s.reporter = past limit failures.length
  attempt : s.attempt = failures.length
  budget : s.budget = Nat.max length 1

/-- An attempt is left to it. -/
structure Searching (limit token length : Nat) (s : Search) (failures : List (Track × Error)) :
    Prop extends Counted limit token length s failures where
  left : failures.length < s.budget

/-- What the ledger of a cascade says at each of its stages. -/
inductive Along (limit token : Nat) : Stage → Ledger → Prop
  | opens : Along limit token (.begin .playNext) ⟨[], [], [], []⟩
  | measures {cascade : Cascade} (htoken : cascade.token = token) :
      Along limit token (.measure cascade) ⟨[], [], [], []⟩
  | takes {s : Search} {failures : List (Track × Error)} {length : Nat}
      (h : Searching limit token length s failures) :
      Along limit token (.take s)
        ⟨failures, failures.map Prod.fst, failureWords limit failures, [length]⟩
  | tries {stage : Stage} {l : Launch} {s : Search} {generation : Nat}
      {failures : List (Track × Error)} {length : Nat} (hstage : stage.Tries l)
      (hpurpose : l.purpose = .search s generation)
      (h : Searching limit token length s failures) :
      Along limit token stage
        ⟨failures, failures.map Prod.fst ++ [l.track], failureWords limit failures, [length]⟩
  /-- The player has refused.  The failure is written down, but told only with the next step. -/
  | fails {l : Launch} {displaced : Option PlaybackRecord} {e : Error} {s : Search}
      {generation : Nat} {failures : List (Track × Error)} {length : Nat}
      (hpurpose : l.purpose = .search s generation)
      (h : Searching limit token length s failures) :
      Along limit token (.rollBack l displaced e)
        ⟨failures ++ [(l.track, e)], failures.map Prod.fst ++ [l.track],
          failureWords limit failures, [length]⟩
  | reports {s : Search} {failures : List (Track × Error)} {length : Nat}
      (h : Counted limit token length s failures) (hle : failures.length ≤ s.budget) :
      Along limit token (.reported s)
        ⟨failures, failures.map Prod.fst, failureWords limit failures, [length]⟩
  | settles {cascade : Cascade} {outcome : PlayOutcome} {g : Ledger}
      (h : g.Accounts limit outcome []) : Along limit token (.settle cascade outcome) g
  | closes {cascade : Cascade} {outcome : PlayOutcome} {g : Ledger}
      (h : g.Accounts limit outcome (closingWords outcome)) :
      Along limit token (.close cascade (.ok outcome) none) g
  | ends {outcome : PlayOutcome} {g : Ledger}
      (h : g.Accounts limit outcome (closingWords outcome)) :
      Along limit token (.finished (.outcome (.ok outcome))) g

/-! ## The steps of a cascade -/

/-- The attempts are over, and only the closing words are left. -/
theorem accounts_of_endSearch {outcome : PlayOutcome} {started : List NowPlaying}
    {last : List Track}
    (houtcome : outcome = .started ∨ outcome = .exhausted ∨ outcome = .queueEmpty)
    (hstarted : started.length = if outcome = .started then 1 else 0)
    (hlast : last.length = if outcome = .started then 1 else 0)
    (hreporter : s.reporter = past limit failures.length)
    (hlength : failures.length + last.length ≤ Nat.max length 1) :
    Ledger.Accounts ⟨failures, failures.map Prod.fst ++ last, failureWords limit failures ++
      (started.map PlaybackEvent.started ++ s.reporter.summary).filter PlaybackEvent.isWord,
      [length]⟩ limit outcome [] := by
  refine ⟨houtcome, ⟨started, hstarted, ?_⟩, ⟨last, hlast, rfl⟩, ⟨length, rfl, ?_⟩⟩
  · have hall : (started.map PlaybackEvent.started).filter PlaybackEvent.isWord =
        started.map .started := by
      rw [List.filter_eq_self]
      intro event hevent
      obtain ⟨now, -, rfl⟩ := List.mem_map.mp hevent
      rfl
    rw [List.filter_append, hall, (onlySays_summary _).words, hreporter,
      FailureReporter.summary_past, List.append_nil, List.append_assoc]
  · rw [List.length_append, List.length_map]
    exact Nat.le_trans hlength (Nat.le_of_eq (Nat.max_comm length 1))

/-- After some attempts another one follows, or all have failed. -/
theorem Along.nextAttempt (h : Counted limit c.token length s failures)
    (hle : failures.length ≤ s.budget) :
    Along limit c.token (c.nextAttempt s).1
      ⟨failures, failures.map Prod.fst,
        failureWords limit failures ++ (c.nextAttempt s).2.filter PlaybackEvent.isWord,
        [length]⟩ := by
  by_cases hleft : s.attempt < s.budget
  · have hnext : c.nextAttempt s = (.take s, []) := by
      simp [Controller.nextAttempt, hleft, isCancelled, h.token]
    rw [hnext, List.filter_nil, List.append_nil]
    exact .takes ⟨h, h.attempt ▸ hleft⟩
  · have hnext : c.nextAttempt s = endSearch s .exhausted := by
      simp [Controller.nextAttempt, hleft]
    have haccounts := @accounts_of_endSearch limit length failures s .exhausted [] []
      (.inr (.inl rfl)) rfl rfl h.reporter (h.budget ▸ hle)
    rw [List.append_nil] at haccounts
    rw [hnext]
    exact .settles haccounts

/-- A failure is told as long as the limit allows, and counted. -/
theorem Along.failed {generation : Nat} (h : Searching limit token length s failures)
    (hpurpose : l.purpose = .search s generation) (e : Error) :
    Along limit token (failed l e).1
      ⟨failures ++ [(l.track, e)], failures.map Prod.fst ++ [l.track],
        failureWords limit failures ++ (failed l e).2.filter PlaybackEvent.isWord, [length]⟩ := by
  obtain ⟨hreporter, hwords⟩ := FailureReporter.record_past limit failures l.track e
  let later : Search :=
    { s with attempt := s.attempt + 1, reporter := (s.reporter.record l.track e).1 }
  have hfailed : Controller.failed l e = (.reported later, (s.reporter.record l.track e).2) := by
    simp only [Controller.failed, hpurpose, later]
  have hcount : (failures ++ [(l.track, e)]).length = failures.length + 1 := List.length_append
  have hlater : Counted limit token length later (failures ++ [(l.track, e)]) :=
    ⟨h.token, by rw [hcount, ← hreporter, ← h.reporter], by rw [hcount, ← h.attempt], h.budget⟩
  have hreports := Along.reports hlater (by rw [hcount]; exact h.left)
  rw [hfailed, (onlySays_record _ _ _).words, h.reporter, hwords]
  simpa only [List.map_append, List.map_cons, List.map_nil] using hreports

/-- How an attempt goes on that nobody overtakes. -/
inductive GoesOn (c : Controller) (l : Launch) (failure : Option (Track × Error)) (next : Stage)
    (told : List PlaybackEvent) : Prop
  | tries (hfailure : failure = none) (hnext : next.Tries l)
      (hwords : told.filter PlaybackEvent.isWord = [])
  | fails (e : Error) (hfailure : failure = some (l.track, e))
      (hnext : failed l e = (next, told))
  /-- The player refuses, and the failure is told once the record is gone. -/
  | refused (e : Error) (displaced : Option PlaybackRecord)
      (hfailure : failure = some (l.track, e)) (hnext : next = .rollBack l displaced e)
      (hwords : told = [])
  | starts (now : NowPlaying) (hfailure : failure = none)
      (hnext : ((succeeded l).1, .started now :: (succeeded l).2) = (next, told))

theorem goesOn_of_step? (hstage : stage.Tries l) (htoken : l.token = c.token)
    (hstep : c.step? op stage signal = some (d, next, told)) :
    GoesOn c l (stage.failure? signal) next told := by
  have hcurrent : c.isCancelled l.token = false := by simp [isCancelled, htoken]
  cases hstage with
  | ask =>
    cases signal with
    | go =>
      cases hdirect : l.direct? with
      | some r =>
        simp only [step?, Stage.need, hdirect] at hstep
        cases hstep
        exact .tries rfl (.admission r) rfl
      | none =>
        simp only [step?, Stage.need, hdirect] at hstep
        cases hstep
        exact .tries rfl .resolving rfl
    | _ => simp [step?, Stage.need, hcurrent] at hstep
  | resolving =>
    cases signal with
    | resolved reply =>
      simp only [step?, Stage.need, Option.some.injEq, Prod.mk.injEq] at hstep
      obtain ⟨rfl, rfl, rfl⟩ := hstep
      cases reply with
      | error e => exact .fails e rfl rfl
      | ok found =>
        cases found with
        | none => exact .fails _ rfl rfl
        | some r => exact .tries rfl (.admission r) rfl
    | _ => simp [step?, Stage.need, hcurrent] at hstep
  | admission r =>
    obtain ⟨-, -, hadmitted⟩ := admitted_of_step? rfl hstep
    simp only [admitted, hcurrent] at hadmitted
    cases hadmitted
    exact .tries rfl (.install r _) rfl
  | install r serial =>
    cases (locked_of_step? rfl hstep).2
    exact .tries rfl (.starting r _ _) rfl
  | starting r displaced paused =>
    obtain ⟨reply, rfl, hplayed⟩ := played_of_step? rfl hstep
    cases reply with
    | error e =>
      cases hplayed
      exact .refused e displaced rfl rfl rfl
    | ok =>
      cases paused with
      | true =>
        cases hplayed
        exact .tries rfl (.pausing r displaced) rfl
      | false =>
        cases hplayed
        exact .tries rfl (.commit r displaced) rfl
  | pausing r displaced =>
    obtain ⟨reply, rfl, hplayed⟩ := played_of_step? rfl hstep
    cases hplayed
    exact .tries rfl (.commit r displaced) rfl
  | commit r displaced =>
    cases (locked_of_step? rfl hstep).2
    exact .starts _ rfl rfl

/-- Nobody but others takes the token of a cascade away. -/
theorem token_of_step? {cascade : Cascade} (hcascade : stage.cascade? = some cascade)
    (hstep : c.step? op stage signal = some (d, next, told)) : d.token = c.token := by
  cases (transition_of_step? hstep).numbering with
  | keeps htoken => exact htoken
  | opens _ _ _ _ hnone => cases hcascade.symm.trans hnone
  | cancels _ _ hnone => cases hcascade.symm.trans hnone
  | closes _ hd => rw [hd, update]

theorem Along.tries_step {generation : Nat} (hstage : stage.Tries l)
    (hpurpose : l.purpose = .search s generation)
    (h : Searching limit c.token length s failures)
    (hstep : c.step? op stage signal = some (d, next, told)) :
    Along limit c.token next
      (Ledger.add
        ⟨failures, failures.map Prod.fst ++ [l.track], failureWords limit failures, [length]⟩
        c stage signal told) := by
  have htoken : l.token = c.token := by
    rw [Launch.token, hpurpose]
    exact h.token
  have htakes : c.tries? stage = none ∧ c.grants? stage = none := by
    cases hstage <;> exact ⟨rfl, rfl⟩
  rw [Ledger.add, htakes.1, htakes.2]
  simp only [Option.toList_none, List.append_nil]
  cases goesOn_of_step? hstage htoken hstep with
  | tries hfailure hnext hwords =>
    rw [hfailure, hwords]
    simpa using Along.tries hnext hpurpose h
  | fails e hfailure hnext =>
    rw [hfailure]
    have hfailed := Along.failed h hpurpose e
    rw [hnext] at hfailed
    exact hfailed
  | refused e displaced hfailure hnext hwords =>
    rw [hfailure, hnext, hwords]
    simpa using Along.fails hpurpose h
  | starts now hfailure hnext =>
    simp only [succeeded, hpurpose, endSearch, Prod.mk.injEq] at hnext
    obtain ⟨rfl, rfl⟩ := hnext
    rw [hfailure, Option.toList_none, List.append_nil]
    exact .settles (@accounts_of_endSearch limit length failures s .started [now] [l.track]
      (.inl rfl) rfl rfl h.reporter (h.budget ▸ h.left))

/-- Each step of a cascade writes into the ledger what it has to. -/
theorem Along.step (h : Along limit c.token stage g) (hlimit : c.reportLimit = limit)
    (hstep : c.step? op stage signal = some (d, next, told)) :
    Along limit d.token next (g.add c stage signal told) := by
  cases h with
  | opens =>
    cases (locked_of_step? rfl hstep).2
    exact .measures rfl
  | @measures cascade htoken =>
    have hlocked := (locked_of_step? rfl hstep).2
    subst hlimit
    let first : Search :=
      ⟨cascade, Nat.max c.state.queue.length 1, 0, .start c.reportLimit⟩
    have hcounted : Counted c.reportLimit c.token c.state.queue.length first [] :=
      ⟨htoken, FailureReporter.start_eq_past _, rfl, rfl⟩
    have hfirst := Along.nextAttempt hcounted (Nat.zero_le _)
    simp only [locked, Prod.mk.injEq] at hlocked
    obtain ⟨rfl, rfl, rfl⟩ := hlocked
    simpa [Ledger.add, Stage.failure?, tries?, grants?, failureWords] using hfirst
  | @takes s failures length h =>
    have hlocked := (locked_of_step? rfl hstep).2
    cases htake : c.state.takeNext? with
    | some taken =>
      simp only [locked, htake, Prod.mk.injEq] at hlocked
      obtain ⟨rfl, rfl, rfl⟩ := hlocked
      simpa [Ledger.add, Stage.failure?, tries?, grants?, htake] using
        Along.tries .ask rfl h
    | none =>
      simp only [locked, htake, endSearch, Prod.mk.injEq] at hlocked
      obtain ⟨rfl, rfl, rfl⟩ := hlocked
      have haccounts := @accounts_of_endSearch limit length failures s .queueEmpty [] []
        (.inr (.inr rfl)) rfl rfl h.reporter (h.budget ▸ Nat.le_of_lt h.left)
      rw [List.append_nil] at haccounts
      simpa [Ledger.add, Stage.failure?, tries?, grants?, htake] using
        Along.settles haccounts
  | tries hstage hpurpose h =>
    have hcascade : ∃ cascade, stage.cascade? = some cascade := by
      cases hstage <;> exact ⟨_, rfl⟩
    rw [token_of_step? hcascade.choose_spec hstep]
    exact .tries_step hstage hpurpose h hstep
  | @fails l displaced e s generation failures length hpurpose h =>
    have hlocked := (locked_of_step? rfl hstep).2
    rw [Ledger.add_of_silent rfl rfl rfl]
    cases hlocked
    exact .failed h hpurpose e
  | reports h hle =>
    cases signal with
    | go =>
      simp only [step?, Stage.need, Option.some.injEq, Prod.mk.injEq] at hstep
      obtain ⟨rfl, rfl, rfl⟩ := hstep
      rw [Ledger.add_of_silent rfl rfl rfl]
      exact .nextAttempt h hle
    | _ => cases hstep
  | settles h =>
    cases (locked_of_step? rfl hstep).2
    rw [Ledger.add_of_silent rfl rfl rfl, (onlySays_closingWords _).words]
    exact .closes (h.final _)
  | closes h =>
    cases (locked_of_step? rfl hstep).2
    rw [Ledger.add_of_silent rfl rfl rfl]
    simpa using Along.ends h
  | ends => cases hstep

/-- The token matters only while the cascade goes on. -/
theorem Along.of_token {token' : Nat} (h : Along limit token stage g)
    (htoken : ∀ cascade, stage.cascade? = some cascade → token' = token) :
    Along limit token' stage g := by
  cases hcascade : stage.cascade? with
  | some cascade =>
    rw [htoken cascade hcascade]
    exact h
  | none =>
    cases h with
    | opens => exact .opens
    | ends h => exact .ends h
    | tries hstage => cases hstage <;> cases hcascade
    | _ => cases hcascade

/-! ## The limit -/

theorem begin_reportLimit (c : Controller) (op : Nat) (request : Request) :
    (c.begin op request).1.reportLimit = c.reportLimit := by
  have hidle : ∀ c : Controller, c.beginIfIdle.1.reportLimit = c.reportLimit := by
    intro c
    unfold beginIfIdle
    split <;> rfl
  have hsignalled : ∀ serial told, (c.signalled serial told).1.reportLimit = c.reportLimit := by
    intro serial told
    unfold signalled
    split
    · split <;> rfl
    · rfl
  cases request with
  | play =>
    simp only [begin]
    split
    · split <;> rfl
    · rfl
  | enqueue track => exact hidle _
  | addPlaylist tracks => exact hidle _
  | stop bySystem => cases bySystem <;> rfl
  | ended serial => exact hsignalled serial _
  | failed serial reason => exact hsignalled serial _
  | togglePause =>
    simp only [begin]
    split <;> rfl
  | presence event roster =>
    simp only [begin]
    split
    · split <;> rfl
    · rfl
  | exchange i j =>
    simp only [begin]
    split <;> rfl
  | remove index =>
    simp only [begin]
    split <;> rfl
  | _ => rfl

/-- How many failures are told is settled once and for all. -/
theorem reportLimit_of_step? (hstep : c.step? op stage signal = some (d, next, told)) :
    d.reportLimit = c.reportLimit := by
  cases transition_of_step? hstep with
  | @begin request _ _ _ e =>
    have hbegin := begin_reportLimit c op request
    rw [e] at hbegin
    exact hbegin
  | _ => rfl

end Controller

/-! ## The account of an operation on a run -/

namespace System

open Controller (Along)

variable {α : Type} {allowed : System → Move → Prop} {s t u : System} {op limit : Nat}
  {signal : Signal} {stage next : Stage} {told : List PlaybackEvent} {m : Move}
  {moves : List Move} {answer : Answer}

/-- What a move adds to the notes on an operation. -/
def note (op : Nat) (f : Controller → Stage → Signal → Option α) (s : System) : Move → List α
  | .arrive _ => []
  | .advance op' signal =>
    if op' = op then ((s.stage? op).bind (f s.controller · signal)).toList else []

/-- The notes on an operation that some moves leave. -/
def notes (op : Nat) (f : Controller → Stage → Signal → Option α) : System → List Move → List α
  | _, [] => []
  | s, m :: moves => s.note op f m ++ ((s.move? m).map (notes op f · moves)).getD []

/-- What an operation has told the chat. -/
def words (s : System) (op : Nat) : List PlaybackEvent := s.log.filterMap (·.wordOf? op)

/-- What an operation has to account for after some moves from `s` to `t`, and what it has
told. -/
def ledger (s : System) (op : Nat) (moves : List Move) (t : System) : Ledger where
  failed := s.notes op (fun _ stage signal => stage.failure? signal) moves
  tried := s.notes op (fun c stage _ => c.tries? stage) moves
  words := t.words op
  lengths := s.notes op (fun c stage _ => c.grants? stage) moves

/-- Nobody takes the token away while the operation is looking for a track. -/
def uninterrupted (op : Nat) (s : System) (m : Move) : Prop :=
  ∀ stage cascade t, s.stage? op = some stage → stage.cascade? = some cascade →
    s.move? m = some t → t.controller.token = s.controller.token

theorem notes_snoc (h : s.Run allowed moves t) (op : Nat)
    (f : Controller → Stage → Signal → Option α) (m : Move) :
    s.notes op f (moves ++ [m]) = s.notes op f moves ++ t.note op f m := by
  have hmoves := moves?_eq_some_of_run h
  clear h
  induction moves generalizing s with
  | nil =>
    obtain rfl : s = t := by simpa [moves?] using hmoves
    cases hlast : s.move? m <;> simp [notes, hlast]
  | cons first moves ih =>
    obtain ⟨u, hmove, hrest⟩ := Option.bind_eq_some_iff.mp hmoves
    simp only [List.cons_append, notes, hmove, Option.map_some, Option.getD_some, ih hrest,
      List.append_assoc]

theorem Advances.words (a : s.Advances t op signal stage next told) (op' : Nat) :
    t.words op' =
      s.words op' ++ if op = op' then told.filter PlaybackEvent.isWord else [] := by
  obtain ⟨answers, hanswers, hlog⟩ := a.log
  have hsilent : answers.filterMap (·.wordOf? op') = [] := by
    rw [List.filterMap_eq_nil_iff]
    intro entry hentry
    have hnone := hanswers entry hentry
    cases entry with
    | event op event => cases hnone
    | answered op answer => rfl
  rw [System.words, hlog, List.filterMap_append, hsilent, List.append_nil, List.filterMap_append,
    List.filterMap_map]
  by_cases hop : op = op'
  · subst hop
    have hwords : (fun event => LogEntry.wordOf? op (.event op event)) =
        Option.guard PlaybackEvent.isWord := by
      funext event
      simp [LogEntry.wordOf?, Option.guard]
    rw [if_pos rfl, ← List.filterMap_eq_filter, ← hwords]
    rfl
  · have hother : told.filterMap (LogEntry.wordOf? op' ∘ LogEntry.event op) = [] := by
      simp [LogEntry.wordOf?, hop]
    rw [if_neg hop, hother]
    rfl

theorem Advances.answered {op' : Nat} (a : s.Advances t op signal stage next told)
    (hmove : s.move? (.advance op signal) = some t) (h : .answered op' answer ∈ t.log) :
    .answered op' answer ∈ s.log ∨ op' = op ∧ next = .finished answer := by
  simp only [move?, advance?, a.before, a.step, Option.bind_eq_bind, Option.bind_some,
    Option.some.injEq] at hmove
  rw [← hmove] at h
  cases next with
  | finished last => simpa [moved, eq_comm] using h
  | _ => simpa [moved] using h

/-! The numbers that have not been given away have left no trace. -/

/-- No operation had a number that has not been given away. -/
def Unused (s : System) : Prop := ∀ op, s.fresh ≤ op →
  s.stage? op = none ∧ s.words op = [] ∧ ∀ answer, .answered op answer ∉ s.log

theorem unused_start (c : Controller) : (start c).Unused :=
  fun _ _ => ⟨rfl, rfl, fun _ => List.not_mem_nil⟩

theorem Unused.move (h : s.Unused) (hmove : s.move? m = some t) : t.Unused := by
  intro op hop
  cases m with
  | arrive request =>
    obtain rfl : s.arrive request = t := Option.some.inj hmove
    obtain ⟨hstage, htraces⟩ := h op (Nat.le_of_succ_le hop)
    rw [stage?_arrive (h _ (Nat.le_refl _)).1, if_neg (Nat.ne_of_gt hop)]
    exact ⟨hstage, htraces⟩
  | advance op' signal =>
    obtain ⟨stage, next, told, a⟩ := advances_of_advance? hmove
    rw [a.fresh] at hop
    obtain ⟨hstage, hwords, hanswers⟩ := h op hop
    have hne : op ≠ op' := by
      rintro rfl
      cases hstage.symm.trans a.before
    refine ⟨(a.stage?_of_ne hne).trans hstage, ?_, ?_⟩
    · rw [a.words, hwords, if_neg (Ne.symm hne)]
      rfl
    · intro answer hanswer
      rcases a.answered hmove hanswer with hold | ⟨hsame, -⟩
      · exact hanswers answer hold
      · exact hne hsame

theorem Unused.run (h : s.Unused) (run : s.Run allowed moves t) : t.Unused :=
  run.invariant h fun h _ hmove => h.move hmove

/-- The ledger of an operation says what it should, wherever the operation is. -/
structure KeepsLedger (limit : Nat) (s : System) (op : Nat) (moves : List Move) (t : System) :
    Prop where
  unused : t.Unused
  old : op < t.fresh
  along : ∃ stage, t.stage? op = stage.underWay? ∧
    Along limit t.controller.token stage (s.ledger op moves t) ∧
    ∀ answer, .answered op answer ∈ t.log → stage = .finished answer
  reportLimit : t.controller.reportLimit = limit

theorem note_of_other (hother : ∀ signal, m ≠ .advance op signal)
    (f : Controller → Stage → Signal → Option α) : s.note op f m = [] := by
  cases m with
  | arrive request => rfl
  | advance op' signal =>
    have hne : op' ≠ op := by
      rintro rfl
      exact hother signal rfl
    exact if_neg hne

theorem ledger_snoc_of_other (run : s.Run allowed moves t) (hwords : u.words op = t.words op)
    (hother : ∀ signal, m ≠ .advance op signal) :
    s.ledger op (moves ++ [m]) u = s.ledger op moves t := by
  simp only [ledger, notes_snoc run, note_of_other hother, List.append_nil, hwords]

theorem ledger_snoc (run : s.Run allowed moves t)
    (a : t.Advances u op signal stage next told) :
    s.ledger op (moves ++ [.advance op signal]) u =
      (s.ledger op moves t).add t.controller stage signal told := by
  simp only [ledger, notes_snoc run, note, if_true, a.before, Option.bind_some, a.words,
    Ledger.add]

theorem KeepsLedger.arrive (h : KeepsLedger limit s op moves t) (run : s.Run allowed moves t)
    (request : Request) :
    KeepsLedger limit s op (moves ++ [.arrive request]) (t.arrive request) := by
  obtain ⟨stage, hstage, halong, hanswers⟩ := h.along
  refine ⟨h.unused.move (m := .arrive request) rfl, Nat.lt_succ_of_lt h.old,
    ⟨stage, ?_, ?_, hanswers⟩, h.reportLimit⟩
  · rw [stage?_arrive (h.unused _ (Nat.le_refl _)).1, if_neg (Nat.ne_of_lt h.old), hstage]
  · have hother : ∀ signal, Move.arrive request ≠ .advance op signal := nofun
    have hwords : (t.arrive request).words op = t.words op := rfl
    rw [ledger_snoc_of_other run hwords hother]
    exact halong

/-- The operation takes a step of its own. -/
theorem KeepsLedger.advance_own (h : KeepsLedger limit s op moves t)
    (run : s.Run allowed moves t) (hmove : t.move? (.advance op signal) = some u)
    (a : t.Advances u op signal stage next told) :
    KeepsLedger limit s op (moves ++ [.advance op signal]) u := by
  obtain ⟨old, hold, halong, hanswers⟩ := h.along
  obtain ⟨rfl, hgoes⟩ := Stage.underWay?_eq_some.mp (hold.symm.trans a.before)
  refine ⟨h.unused.move hmove, a.fresh ▸ h.old, ⟨next, ?_, ?_, ?_⟩, ?_⟩
  · rw [a.after, if_pos rfl]
  · rw [ledger_snoc run a]
    exact halong.step h.reportLimit a.step
  · intro answer hanswer
    rcases a.answered hmove hanswer with hbefore | ⟨-, hnext⟩
    · exact absurd (hanswers answer hbefore) (hgoes answer)
    · exact hnext
  · exact (Controller.reportLimit_of_step? a.step).trans h.reportLimit

/-- Another operation takes a step, which is no interruption. -/
theorem KeepsLedger.advance_other {op' : Nat} (h : KeepsLedger limit s op moves t)
    (run : s.Run allowed moves t) (hallowed : t.uninterrupted op (.advance op' signal))
    (hmove : t.move? (.advance op' signal) = some u)
    (a : t.Advances u op' signal stage next told) (hne : op' ≠ op) :
    KeepsLedger limit s op (moves ++ [.advance op' signal]) u := by
  obtain ⟨old, hold, halong, hanswers⟩ := h.along
  refine ⟨h.unused.move hmove, a.fresh ▸ h.old, ⟨old, ?_, ?_, ?_⟩, ?_⟩
  · rw [a.stage?_of_ne hne.symm, hold]
  · have hwords : u.words op = t.words op := by
      rw [a.words, if_neg hne, List.append_nil]
    have hother : ∀ other, Move.advance op' signal ≠ .advance op other := by
      rintro other ⟨⟩
      exact hne rfl
    rw [ledger_snoc_of_other run hwords hother]
    refine halong.of_token ?_
    intro cascade hcascade
    have hstage : t.stage? op = some old := by
      rw [hold, Stage.underWay?_eq_some]
      refine ⟨rfl, ?_⟩
      rintro answer rfl
      cases hcascade
    exact hallowed old cascade u hstage hcascade hmove
  · intro answer hanswer
    rcases a.answered hmove hanswer with hbefore | ⟨hsame, -⟩
    · exact hanswers answer hbefore
    · exact absurd hsame.symm hne
  · exact (Controller.reportLimit_of_step? a.step).trans h.reportLimit

theorem KeepsLedger.run (h : KeepsLedger limit s op [] s)
    (run : s.Run (uninterrupted op) moves t) : KeepsLedger limit s op moves t := by
  -- Only its own steps write into the ledger; the others may change all but the token.
  induction run with
  | nil => exact h
  | @snoc moves t u m run hallowed hmove ih =>
    cases m with
    | arrive request =>
      obtain rfl : t.arrive request = u := Option.some.inj hmove
      exact ih.arrive run request
    | advance op' signal =>
      obtain ⟨stage, next, told, a⟩ := advances_of_advance? hmove
      by_cases hop : op' = op
      · subst hop
        exact ih.advance_own run hmove a
      · exact ih.advance_other run hallowed hmove a hop

theorem keepsLedger_arrive (h : s.Unused) :
    KeepsLedger s.controller.reportLimit (s.arrive .playNext) s.fresh [] (s.arrive .playNext) := by
  obtain ⟨hstage, hwords, hanswers⟩ := h _ (Nat.le_refl _)
  refine ⟨h.move (m := .arrive .playNext) rfl, Nat.lt_succ_self _,
    ⟨.begin .playNext, ?_, ?_, ?_⟩, rfl⟩
  · rw [stage?_arrive hstage, if_pos rfl]
    rfl
  · have hledger : (s.arrive .playNext).ledger s.fresh [] (s.arrive .playNext) =
        ⟨[], [], [], []⟩ := by
      have hnone : (s.arrive .playNext).words s.fresh = [] := hwords
      rw [ledger, hnone]
      rfl
    rw [hledger]
    exact .opens
  · intro answer hanswer
    exact absurd hanswer (hanswers answer)

theorem reportLimit_of_run (run : s.Run allowed moves t) :
    t.controller.reportLimit = s.controller.reportLimit := by
  refine @Run.invariant allowed s t moves
    (fun v => v.controller.reportLimit = s.controller.reportLimit) run rfl ?_
  intro v w m hv _ hmove
  cases m with
  | arrive request =>
    obtain rfl : v.arrive request = w := Option.some.inj hmove
    exact hv
  | advance op signal =>
    obtain ⟨stage, next, told, a⟩ := advances_of_advance? hmove
    exact (Controller.reportLimit_of_step? a.step).trans hv

theorem mem_log_of_answer? (h : s.answer? op = some answer) : .answered op answer ∈ s.log := by
  obtain ⟨entry, hentry, hanswer⟩ := List.exists_of_findSome?_eq_some h
  cases entry with
  | event op event => cases hanswer
  | answered op' last =>
    simp only [LogEntry.answerOf?, Option.ite_none_right_eq_some, Option.some.injEq] at hanswer
    obtain ⟨rfl, rfl⟩ := hanswer
    exact hentry

/-- A cascade that nobody interrupts, with any answers of the resolver and the player and
whatever else happens meanwhile, tells of its failures in the order in which they came, as many
as the limit allows; then of the track that it has started, if it has; then how many failures it
has not told of, if there are any; and then that it has started none, if so.  It has tried
exactly the tracks that failed and the one that it has started, which are no more than the queue
had when the attempts were granted, or one. -/
theorem failures_accounted {c : Controller} {before : List Move}
    (begun : (start c).Run anyMove before s)
    (run : (s.arrive .playNext).Run (uninterrupted s.fresh) moves t)
    (hanswer : t.answer? s.fresh = some answer) :
    ∃ outcome, answer = .outcome (.ok outcome) ∧
      ((s.arrive .playNext).ledger s.fresh moves t).Accounts c.reportLimit outcome
        (Controller.closingWords outcome) ∧
      (Controller.closingWords outcome).length =
        if outcome = .queueEmpty ∨ outcome = .exhausted then 1 else 0 := by
  have hlimit : s.controller.reportLimit = c.reportLimit := reportLimit_of_run begun
  have hkeeps := (keepsLedger_arrive ((unused_start c).run begun)).run run
  obtain ⟨stage, -, halong, hanswers⟩ := hkeeps.along
  obtain rfl := hanswers answer (mem_log_of_answer? hanswer)
  rw [hlimit] at halong
  generalize (s.arrive .playNext).ledger s.fresh moves t = g at halong ⊢
  cases halong with
  | @ends outcome _ h =>
    refine ⟨outcome, rfl, h, ?_⟩
    cases outcome <;> rfl
  | tries hstage => cases hstage

/-- Whether the move interrupts nothing. -/
def isUninterrupted (op : Nat) (s : System) (m : Move) : Bool :=
  ((s.stage? op).bind Stage.cascade?).isNone ||
    (s.move? m).all fun t => t.controller.token == s.controller.token

theorem uninterrupted_of_isUninterrupted (h : isUninterrupted op s m = true) :
    uninterrupted op s m := by
  intro stage cascade t hstage hcascade hmove
  simpa [isUninterrupted, hstage, hcascade, hmove] using h

/-- Two failures may be told.  Of four tracks the player refuses the first three, and the fourth
plays; before the second is tried, somebody adds a fifth. -/
theorem failures_accounted_of_three :
    let a : Track := { Track.direct "a" with name := "Alba", artists := [⟨"Ana", none⟩] }
    let b : Track := { Track.direct "b" with name := "Boda" }
    let c : Controller := { blank.controller.update fun s =>
      { s with queue := ⟨[a, b, .direct "c", .direct "d"], []⟩ } with reportLimit := 2 }
    let s := start c
    let refused : List Move :=
      goes 0 4 ++ .advance 0 (.played (.error (.player "boom"))) :: goes 0 2
    let moves : List Move := goes 0 2 ++ refused ++ .arrive (.enqueue (.direct "e")) :: goes 1 1 ++
      refused ++ refused ++ goes 0 4 ++ .advance 0 (.played (.ok ())) :: goes 0 3
    let t := (s.arrive .playNext).after moves
    let g := (s.arrive .playNext).ledger 0 moves t
    (s.arrive .playNext).Run (uninterrupted 0) moves t ∧
      t.answer? 0 = some (.outcome (.ok .started)) ∧
      g.failed = [(a, .player "boom"), (b, .player "boom"), (.direct "c", .player "boom")] ∧
      g.Accounts 2 .started [] ∧
      ∃ now, g.words =
        [.say "❌ No se pudo reproducir Alba - Ana: El reproductor no pudo iniciar la canción: boom",
          .say "❌ No se pudo reproducir Boda: El reproductor no pudo iniciar la canción: boom",
          .started now, .say "⚠️ Otras 1 canciones también fallaron"] := by
  intro a b c s refused moves t g
  have run : (s.arrive .playNext).Run (uninterrupted 0) moves t :=
    run_after_of_passes (fun _ _ => uninterrupted_of_isUninterrupted) (by decide +kernel)
  have hanswer : t.answer? 0 = some (.outcome (.ok .started)) := by decide +kernel
  have hfailed : g.failed =
      [(a, .player "boom"), (b, .player "boom"), (.direct "c", .player "boom")] := by
    decide +kernel
  have begun : (start c).Run anyMove [] s := .nil
  obtain ⟨outcome, houtcome, haccounts, -⟩ := failures_accounted begun run hanswer
  obtain rfl : PlayOutcome.started = outcome := by simpa using houtcome
  have hg : g.Accounts 2 .started [] := haccounts
  refine ⟨run, hanswer, hfailed, hg, ?_⟩
  obtain ⟨started, hstarted, hwords⟩ := hg.words
  obtain ⟨now, rfl⟩ := List.length_eq_one_iff.mp hstarted
  have htold : FailureReporter.failureWords 2 g.failed =
      [.say "❌ No se pudo reproducir Alba - Ana: El reproductor no pudo iniciar la canción: boom",
        .say "❌ No se pudo reproducir Boda: El reproductor no pudo iniciar la canción: boom"] := by
    rw [hfailed]
    decide +kernel
  have hrest : s!"⚠️ Otras {g.failed.length - 2} canciones también fallaron" =
      "⚠️ Otras 1 canciones también fallaron" := by
    rw [hfailed]
    decide +kernel
  rw [htold, hrest, hfailed] at hwords
  exact ⟨now, hwords⟩

end System

end Jukebox
