import Jukebox.Proofs.Playback.Order
import Jukebox.Proofs.Playback.Seeking
import Jukebox.Proofs.Queue.Duplicates
import Jukebox.Proofs.Queue.Lap

/-!
# A start that is cancelled while the resolver looks for its track

A cascade in a loop mode takes the head of the queue, and somebody stops before the resolver has
answered.  The cascade then puts the track back at the head of the queue.  It does not take back
what else the taking has done: the track stays counted, and where the random loop has shuffled the
queue, it stays shuffled (`System.cancelled_start_leaves_trace`).
-/

namespace Jukebox

open Controller (Interruptible superseded)

namespace Stage

/-- The operation takes no track from the queue any more, unless a start fails. -/
def isPastResolver : Stage → Bool
  | .admission _ _ | .install _ _ _ | .starting _ _ _ _ | .giveBack _ _ _ | .putBack _ _
  | .settle _ _ | .close _ _ _ | .finished _ => true
  | _ => false

/-- A stop that has taken the token away. -/
def isStopping : Stage → Bool
  | .stopAdmission _ | .retire _ | .halting _ => true
  | _ => false

/-- The operation has a track whose start is overtaken, and still has to give it back. -/
inductive CarriesBack (l : Launch) : Stage → Prop
  | looks {stage : Stage} (h : Interruptible l stage) : CarriesBack l stage
  | waits (r : ResolvedTrack) : CarriesBack l (.admission l r)
  | gives : CarriesBack l (superseded l)

theorem CarriesBack.ne_finished {l : Launch} {stage : Stage} (h : stage.CarriesBack l)
    (answer : Answer) : stage ≠ .finished answer := by
  cases h with
  | looks hlooks => cases hlooks <;> nofun
  | waits r => nofun
  | gives =>
    unfold superseded
    cases l.purpose <;> nofun

end Stage

/-! ## A track is taken and put back -/

namespace PlaybackState

variable {s : PlaybackState} {head : Track} {rest : List Track}

/-- The random loop shuffles the queue when the next track is taken. -/
def Reshuffles (s : PlaybackState) : Prop :=
  s.mode.mode = .randomLoop ∧ s.queue.items.length ≤ s.mode.playCount + 1

instance (s : PlaybackState) : Decidable s.Reshuffles := inferInstanceAs (Decidable (_ ∧ _))

/-- The queue once its head was taken in a loop mode. -/
def aroundHead (s : PlaybackState) (head : Track) (rest : List Track) : List Track :=
  if s.Reshuffles then (Jukebox.shuffle (rest ++ [head]) s.words).1 else rest ++ [head]

theorem takeNext?_of_isLoop {track : Track} {state : PlaybackState}
    (hloop : s.mode.mode.isLoop = true) (hitems : s.queue.items = head :: rest)
    (htaken : s.takeNext? = some (track, state)) :
    track = head ∧ state.queue.items = s.aroundHead head rest ∧
      state.mode = ⟨s.mode.mode, if s.Reshuffles then 1 else s.mode.playCount + 1⟩ := by
  by_cases hshuffles : s.Reshuffles
  · have hle : rest.length ≤ s.mode.playCount := by
      have hlength := hshuffles.2
      rw [hitems, List.length_cons] at hlength
      omega
    simp only [takeNext?, Queue.next?, hitems, advance?_cons_of_le hshuffles.1 hle,
      Option.map_some, Option.some.injEq, Prod.mk.injEq] at htaken
    obtain ⟨rfl, rfl⟩ := htaken
    simp [aroundHead, hshuffles]
  · have hlt : s.mode.mode = .randomLoop → s.mode.playCount + 1 < rest.length + 1 := by
      intro hmode
      by_contra hle
      refine hshuffles ⟨hmode, ?_⟩
      rw [hitems, List.length_cons]
      omega
    simp only [takeNext?, Queue.next?, hitems, advance?_cons hlt, hloop, if_true,
      Option.map_some, Option.some.injEq, Prod.mk.injEq] at htaken
    obtain ⟨rfl, rfl⟩ := htaken
    simp [aroundHead, hshuffles]

theorem aroundHead_perm (s : PlaybackState) (head : Track) (rest : List Track) :
    (s.aroundHead head rest).Perm (rest ++ [head]) := by
  unfold aroundHead
  split
  · exact shuffle_perm _ _
  · exact .rfl

end PlaybackState

namespace Queue

variable {head : Track} {rest : List Track}

theorem filter_rest (hdiffers : ∀ item ∈ rest, head.Differs item) :
    (rest.filter fun item => !item.same head) = rest := by
  refine List.filter_eq_self.mpr ?_
  intro item hitem
  have hsame : item.same head = false := (hdiffers item hitem).symm
  simp [hsame]

/-- A track that is the same as itself goes away from the end of the queue. -/
theorem filter_rotated (hdiffers : ∀ item ∈ rest, head.Differs item)
    (hself : head.same head = true) :
    ((rest ++ [head]).filter fun item => !item.same head) = rest := by
  rw [List.filter_append, filter_rest hdiffers]
  simp [hself]

/-- Put back at the head, a track that was taken leaves the queue as it was if it is the same as
itself and there was nothing to shuffle. -/
theorem filter_eq_rest_iff {around : List Track} (hperm : around.Perm (rest ++ [head]))
    (hdiffers : ∀ item ∈ rest, head.Differs item) (hrest : rest.length ≤ 1) :
    (around.filter fun item => !item.same head) = rest ↔ head.same head = true := by
  have hfiltered := hperm.filter fun item => !item.same head
  constructor
  · intro heq
    by_contra hself
    have hall : ((rest ++ [head]).filter fun item => !item.same head) = rest ++ [head] := by
      rw [List.filter_append, filter_rest hdiffers]
      simpa using hself
    have hlength := hfiltered.length_eq
    rw [heq, hall, List.length_append, List.length_singleton] at hlength
    omega
  · intro hself
    rw [filter_rotated hdiffers hself] at hfiltered
    match rest, hrest, hfiltered with
    | [], _, hfiltered => exact hfiltered.eq_nil
    | [item], _, hfiltered => exact List.perm_singleton.mp hfiltered

end Queue

/-- The taking of a track that is put back leaves no trace. -/
theorem PlaybackState.untraced_iff {s : PlaybackState} {head : Track} {rest : List Track}
    (hitems : s.queue.items = head :: rest) (hdiffers : ∀ item ∈ rest, head.Differs item) :
    head :: (s.aroundHead head rest).filter (fun item => !item.same head) = s.queue.items ∧
        (⟨s.mode.mode, if s.Reshuffles then 1 else s.mode.playCount + 1⟩ : ModeState) = s.mode ↔
      head.same head = true ∧ s.mode.mode = .randomLoop ∧ s.mode.playCount = 1 ∧
        s.queue.items.length ≤ 2 := by
  have hlength : s.queue.items.length = rest.length + 1 := by rw [hitems, List.length_cons]
  have hfilter : rest.length ≤ 1 →
      ((s.aroundHead head rest).filter (fun item => !item.same head) = rest ↔
        head.same head = true) :=
    Queue.filter_eq_rest_iff (s.aroundHead_perm head rest) hdiffers
  constructor
  · rintro ⟨hsame, hcounted⟩
    have hcount := congrArg ModeState.playCount hcounted
    dsimp only at hcount
    by_cases hshuffles : s.Reshuffles
    · rw [if_pos hshuffles] at hcount
      have htwo : s.queue.items.length ≤ 2 := by
        have hle := hshuffles.2
        omega
      rw [hitems] at hsame
      exact ⟨(hfilter (by omega)).mp (List.tail_eq_of_cons_eq hsame), hshuffles.1, hcount.symm,
        htwo⟩
    · rw [if_neg hshuffles] at hcount
      omega
  · rintro ⟨hself, hrandom, hone, htwo⟩
    have hshuffles : s.Reshuffles := ⟨hrandom, by omega⟩
    refine ⟨?_, ?_⟩
    · rw [(hfilter (by omega)).mpr hself, hitems]
    · rw [if_pos hshuffles, ← hone]

namespace Controller

variable {c d d' : Controller} {op : Nat} {stage next : Stage} {l : Launch}

/-! ## The first track is taken -/

theorem isPastResolver_superseded (l : Launch) : (superseded l).isPastResolver = true := by
  unfold superseded
  cases l.purpose <;> rfl

/-- Where `playNext` can stand while nothing has been answered yet. -/
inductive Opening (c : Controller) : Controller → Stage → Prop
  | begun : Opening c c (.begin .playNext)
  | opened : Opening c (c.openCascade none).1 (.measure (c.openCascade none).2)
  | looks {search : Search} (h : search.cascade = (c.openCascade none).2) :
      Opening c (c.openCascade none).1 (.take search)
  | taken {search : Search} {track : Track} {state : PlaybackState} {stage : Stage} {retries : Nat}
      (hcascade : search.cascade = (c.openCascade none).2)
      (htaken : (c.openCascade none).1.state.takeNext? = some (track, state))
      (hstage : Interruptible ⟨track, none, retries, .search search c.state.generation⟩ stage) :
      Opening c { (c.openCascade none).1 with state } stage
  | past {d : Controller} {stage : Stage} (h : stage.isPastResolver = true) : Opening c d stage

theorem Opening.step (h : Opening c d stage) (ht : d.Transition op stage .go d' next) :
    Opening c d' next := by
  cases h with
  | begun =>
    cases ht with
    | begin e begins =>
      cases e
      exact .opened
  | opened =>
    cases ht with
    | @measure cascade search hcascade hbudget =>
      rcases nextAttempt_cases (c.openCascade none).1 search with ⟨hnext, -⟩ | ⟨hnext, -⟩ | hnext
      · rw [hnext]
        exact .looks hcascade
      · rw [hnext]
        exact .past rfl
      · rw [hnext]
        exact .past rfl
  | looks hcascade =>
    cases ht with
    | take htake => exact .taken hcascade htake .ask
    | takeNothing htake => exact .past rfl
  | taken hcascade htaken hstage =>
    cases hstage with
    | ask =>
      cases ht with
      | askDirect hdirect => exact .past rfl
      | askResolver hdirect => exact .taken hcascade htaken .resolving
    | resolving => cases ht
  | past hpast =>
    cases ht with
    | giveBack => exact .past rfl
    | settle final => exact .past rfl
    | close => exact .past rfl
    | putBack => exact .past rfl
    | install => exact .past rfl
    | enter hgate htoken => exact .past rfl
    | refuse htoken => exact .past (isPastResolver_superseded _)
    | _ => cases hpast

theorem Opening.of_interruptible (h : Opening c d stage) (hstage : Interruptible l stage) :
    ∃ search track state retries, search.cascade = (c.openCascade none).2 ∧
      (c.openCascade none).1.state.takeNext? = some (track, state) ∧
      d = { (c.openCascade none).1 with state } ∧
      l = ⟨track, none, retries, .search search c.state.generation⟩ := by
  cases h with
  | @taken search track state _ retries hcascade htaken hstage' =>
    have hl : l = ⟨track, none, retries, .search search c.state.generation⟩ := by
      cases hstage with
      | ask => cases hstage'; rfl
      | resolving => cases hstage'; rfl
    exact ⟨search, track, state, retries, hcascade, htaken, rfl, hl⟩
  | past hpast => cases hstage <;> cases hpast
  | _ => cases hstage

/-! ## The track comes back -/

/-- Two controllers whose tokens, queues and modes are the same. -/
structure SameQueue (c d : Controller) : Prop where
  token : d.token = c.token
  generation : d.state.generation = c.state.generation
  mode : d.state.mode = c.state.mode
  items : d.state.queue.items = c.state.queue.items

theorem SameQueue.refl (c : Controller) : SameQueue c c := ⟨rfl, rfl, rfl, rfl⟩

/-- A start that is overtaken comes nearer to giving its track back, and then gives it back. -/
theorem carriesBack_step {search : Search} {generation : Nat} {signal : Signal}
    (hcarries : stage.CarriesBack l) (hpurpose : l.purpose = .search search generation)
    (htoken : l.token ≠ c.token) (ht : c.Transition op stage signal d next)
    (hfinds : ∀ reply, signal = .resolved reply → ∃ r, reply = .ok (some r)) :
    SameQueue c d ∧ next.CarriesBack l ∨
      d = c.update (·.giveBack l.track generation) ∧
        next = .close search.cascade (.ok .superseded) none := by
  cases hcarries with
  | looks hlooks =>
    cases hlooks with
    | ask =>
      cases ht with
      | @askDirect _ r hdirect => exact .inl ⟨.refl c, .waits r⟩
      | askResolver hdirect => exact .inl ⟨.refl c, .looks .resolving⟩
      | cancel hstage htoken' =>
        cases hstage
        exact .inl ⟨.refl c, .gives⟩
      | pauseSet hkeeps | pauseKept hkeeps => cases hkeeps
    | resolving =>
      cases ht with
      | cancel hstage htoken' =>
        cases hstage
        exact .inl ⟨.refl c, .gives⟩
      | @resolve _ r => exact .inl ⟨.refl c, .waits r⟩
      | resolveFails hreply e =>
        obtain ⟨r, hfound⟩ := hfinds _ rfl
        exact absurd hfound (hreply r)
      | pauseSet hkeeps | pauseKept hkeeps => cases hkeeps
  | waits r =>
    cases ht with
    | enter hgate htoken' => exact absurd htoken' htoken
    | refuse htoken' => exact .inl ⟨.refl c, .gives⟩
    | cancel hstage htoken' => cases hstage
    | pauseSet hkeeps | pauseKept hkeeps => cases hkeeps
  | gives =>
    have hgives : superseded l = .giveBack search.cascade l.track generation := by
      simp only [superseded, hpurpose]
    rw [hgives] at ht
    cases ht with
    | giveBack => exact .inr ⟨rfl, rfl⟩
    | cancel hstage htoken' => cases hstage
    | pauseSet hkeeps | pauseKept hkeeps => cases hkeeps

theorem sameQueue_of_stops {signal : Signal} (hstops : stage.isStopping = true)
    (ht : c.Transition op stage signal d next) :
    SameQueue c d ∧ (next.isStopping = true ∨ ∃ answer, next = .finished answer) := by
  cases ht with
  | enterToStop hgate => exact ⟨⟨rfl, rfl, rfl, rfl⟩, .inl rfl⟩
  | retire =>
    obtain ⟨queue, hitems, heq⟩ := c.state.retire_eq
    refine ⟨?_, .inl rfl⟩
    simp only [update, heq]
    exact ⟨rfl, rfl, rfl, hitems⟩
  | halted => exact ⟨⟨rfl, rfl, rfl, rfl⟩, .inr ⟨_, rfl⟩⟩
  | cancel hstage htoken => cases hstage <;> cases hstops
  | pauseSet hkeeps | pauseKept hkeeps => cases hkeeps <;> cases hstops
  | _ => cases hstops

theorem sameQueue_of_closes {cascade : Cascade} {result : Except Error PlayOutcome}
    {report : Option String} {signal : Signal}
    (ht : c.Transition op (.close cascade result report) signal d next) :
    SameQueue c d ∧ next = .finished (.outcome result) := by
  cases ht with
  | close =>
    obtain ⟨record, queue, -, hitems, heq⟩ := c.state.closeCascade_eq cascade
    refine ⟨?_, rfl⟩
    simp only [update, heq]
    exact ⟨rfl, rfl, rfl, hitems⟩
  | cancel hstage htoken => cases hstage
  | pauseSet hkeeps | pauseKept hkeeps => cases hkeeps

end Controller

namespace System

open Controller (Opening SameQueue carriesBack_step sameQueue_of_stops sameQueue_of_closes)

variable {s t u v : System} {op n : Nat} {signal : Signal} {stage next : Stage} {l : Launch}
  {told : List PlaybackEvent} {c : Controller} {moves : List Move} {m : Move}

/-- `playNext` alone is in flight, and nothing has been answered yet. -/
structure OpensAlone (c : Controller) (v : System) : Prop where
  fresh : v.fresh = 1
  opening : ∀ {stage}, v.stage? 0 = some stage → Opening c v.controller stage
  alone : ∀ {op}, op ≠ 0 → v.stage? op = none

theorem opensAlone_arrive (c : Controller) : OpensAlone c ((start c).arrive .playNext) where
  fresh := rfl
  opening := by
    intro stage hstage
    cases hstage
    exact .begun
  alone := by
    intro op hop
    have hfresh : op ≠ (start c).fresh := hop
    rw [stage?_arrive rfl, if_neg hfresh]
    rfl

theorem OpensAlone.op_eq (h : OpensAlone c u) (hstage : u.stage? op = some stage) : op = 0 := by
  by_contra hop
  rw [h.alone hop] at hstage
  cases hstage

theorem OpensAlone.advance (h : OpensAlone c u) (a : u.Advances v op .go stage next told) :
    OpensAlone c v where
  fresh := a.fresh.trans h.fresh
  opening := by
    intro stage' hstage'
    obtain rfl := h.op_eq a.before
    rcases a.stage?_cases hstage' with ⟨-, rfl⟩ | ⟨hne, -⟩
    · exact (h.opening a.before).step a.transition
    · exact absurd rfl hne
  alone := by
    intro op' hop'
    obtain rfl := h.op_eq a.before
    rw [a.stage?_of_ne hop']
    exact h.alone hop'

/-- The operation takes steps for which it needs no answer. -/
def onlyGoes (_ : System) (m : Move) : Prop := ∃ op, m = .advance op .go

theorem OpensAlone.run (h : OpensAlone c u) (run : u.Run anyMove (goes 0 n) v) :
    OpensAlone c v := by
  have hgoes : u.Run onlyGoes (goes 0 n) v :=
    run_of_moves? (fun _ m hm => ⟨0, List.eq_of_mem_replicate hm⟩) (moves?_eq_some_of_run run)
  refine hgoes.invariant h ?_
  rintro u v m hu ⟨op, rfl⟩ hmove
  obtain ⟨stage, next, told, a⟩ := advances_of_advance? hmove
  exact hu.advance a

theorem opensAlone_of_run (run : (start c).Run anyMove (.arrive .playNext :: goes 0 n) s) :
    OpensAlone c s := by
  obtain ⟨u, hfirst, hrest⟩ := run.split_cons
  obtain ⟨-, hmove⟩ := hfirst.of_single
  obtain rfl : (start c).arrive .playNext = u := by simpa [move?] using hmove
  exact (opensAlone_arrive c).run hrest

/-! ## The stop, and what follows -/

/-- No request comes in, and the resolver does not fail. -/
def leftAlone (_ : System) : Move → Prop
  | .arrive _ => False
  | .advance _ signal => ∀ reply, signal = .resolved reply → ∃ r, reply = .ok (some r)

/-- Whether the move is allowed wherever it is made. -/
def isLeftAlone : Move → Bool
  | .arrive _ => false
  | .advance _ (.resolved reply) => reply.toOption.join.isSome
  | .advance _ _ => true

theorem leftAlone_of_isLeftAlone (h : isLeftAlone m = true) : leftAlone v m := by
  cases m with
  | arrive request => cases h
  | advance op signal =>
    rintro reply rfl
    cases reply with
    | error e => cases h
    | ok found =>
      obtain ⟨r, rfl⟩ := Option.isSome_iff_exists.mp h
      exact ⟨r, rfl⟩

/-- The track of an overtaken start is still on its way back to the queue, or it is back and the
operation that had it only closes. -/
inductive PutsBack (state : PlaybackState) (l : Launch) (v : System) (items : List Track) : Prop
  | carries {stage : Stage} (hstage : v.stage? 0 = some stage) (h : stage.CarriesBack l)
      (hitems : items = state.queue.items)
  | closes (h : ∀ {stage}, v.stage? 0 = some stage → ∃ cascade result report,
        stage = .close cascade result report)
      (hitems : items = (state.queue.addFirst l.track).items)

/-- A stop has taken the token of a start away, and the track comes back to the queue, or has come
back. -/
structure GivesBack (state : PlaybackState) (l : Launch) (v : System) : Prop where
  purpose : ∃ search, l.purpose = .search search state.generation
  token : l.token < v.controller.token
  generation : v.controller.state.generation = state.generation
  mode : v.controller.state.mode = state.mode
  stops : ∀ {op stage}, v.stage? op = some stage → op ≠ 0 → stage.isStopping = true
  track : PutsBack state l v v.controller.state.queue.items

variable {state : PlaybackState}

/-- A stop that follows the start takes its token away. -/
theorem OpensAlone.stop (h : OpensAlone c s)
    (stopped : s.Run anyMove [.arrive (.stop false), .advance 1 .go] t) :
    t.controller = s.controller.cancelPending ∧ t.stage? 0 = s.stage? 0 ∧
      ∀ {op stage}, t.stage? op = some stage → op ≠ 0 → stage.isStopping = true := by
  obtain ⟨u, hfirst, hlast⟩ := stopped.split_cons
  obtain ⟨-, harrive⟩ := hfirst.of_single
  obtain ⟨-, hmove⟩ := hlast.of_single
  obtain rfl : s.arrive (.stop false) = u := by simpa [move?] using harrive
  have hnone : s.stage? s.fresh = none := by
    rw [h.fresh]
    exact h.alone (by decide)
  have hstages : ∀ op, (s.arrive (.stop false)).stage? op =
      if op = 1 then some (.begin (.stop false)) else s.stage? op := by
    intro op
    rw [stage?_arrive hnone, h.fresh]
  obtain ⟨stage, next, told, a⟩ := advances_of_advance? hmove
  obtain rfl : .begin (.stop false) = stage := by simpa [hstages] using a.before
  obtain ⟨hcancelled, rfl⟩ :
      t.controller = s.controller.cancelPending ∧ next = .stopAdmission false := by
    cases a.transition with
    | begin e begins =>
      simp only [Controller.begin, Bool.false_eq_true, if_false, Prod.mk.injEq] at e
      exact ⟨e.1.symm, e.2.1.symm⟩
  refine ⟨hcancelled, ?_, ?_⟩
  · rw [a.stage?_of_ne (by decide), hstages, if_neg (by decide)]
  · intro op stage hstage hop
    rcases a.stage?_cases hstage with ⟨-, rfl⟩ | ⟨hne, hold⟩
    · rfl
    · rw [hstages, if_neg hne, h.alone hop] at hold
      cases hold

theorem givesBack_of_stop (h : OpensAlone c s) (hstage : s.stage? 0 = some stage)
    (hresolving : Interruptible l stage)
    (stopped : s.Run anyMove [.arrive (.stop false), .advance 1 .go] t) :
    ∃ state, (c.openCascade none).1.state.takeNext? = some (l.track, state) ∧
      GivesBack state l t := by
  obtain ⟨hcancelled, hkept, hstops⟩ := h.stop stopped
  obtain ⟨search, track, state, retries, hcascade, htaken, hcontroller, rfl⟩ :=
    (h.opening hstage).of_interruptible hresolving
  rw [hcontroller] at hcancelled
  have hgeneration : c.state.generation = state.generation := by
    obtain ⟨queue, mode, words, heq⟩ := PlaybackState.takeNext?_eq htaken
    rw [heq]
    rfl
  refine ⟨state, htaken, ?_⟩
  exact {
    purpose := ⟨search, by rw [hgeneration]⟩
    token := by
      rw [hcancelled]
      have htoken : search.cascade.token = c.token + 1 := by
        rw [hcascade]
        rfl
      simp only [Launch.token, Purpose.cascade, htoken, Controller.cancelPending,
        Controller.openCascade]
      omega
    generation := by
      rw [hcancelled]
      rfl
    mode := by
      rw [hcancelled]
      rfl
    stops := hstops
    track := by
      rw [hcancelled]
      exact .carries (hkept.trans hstage) (.looks hresolving) rfl }

/-- A step that leaves the queue alone. -/
theorem GivesBack.keep (h : GivesBack state l u) (hsame : SameQueue u.controller v.controller)
    (hstops : ∀ {op stage}, v.stage? op = some stage → op ≠ 0 → stage.isStopping = true)
    (htrack : PutsBack state l v u.controller.state.queue.items) : GivesBack state l v where
  purpose := h.purpose
  token := by
    rw [hsame.token]
    exact h.token
  generation := hsame.generation.trans h.generation
  mode := hsame.mode.trans h.mode
  stops := hstops
  track := by
    rw [hsame.items]
    exact htrack

/-- The step that puts the track back. -/
theorem GivesBack.putBack (h : GivesBack state l u)
    (hgiven : v.controller = u.controller.update (·.giveBack l.track state.generation))
    (hitems : u.controller.state.queue.items = state.queue.items)
    (hstops : ∀ {op stage}, v.stage? op = some stage → op ≠ 0 → stage.isStopping = true)
    (hcloses : ∀ {stage}, v.stage? 0 = some stage → ∃ cascade result report,
      stage = .close cascade result report) : GivesBack state l v := by
  obtain ⟨queue, heq⟩ := u.controller.state.giveBack_eq l.track state.generation
  have hadded : v.controller.state.queue.items = (state.queue.addFirst l.track).items := by
    rw [hgiven]
    simp [Controller.update, PlaybackState.giveBack, h.generation, Queue.items_addFirst, hitems]
  exact {
    purpose := h.purpose
    token := by
      rw [hgiven]
      exact h.token
    generation := by
      rw [hgiven, Controller.update, heq]
      exact h.generation
    mode := by
      rw [hgiven, Controller.update, heq]
      exact h.mode
    stops := hstops
    track := .closes hcloses hadded }

/-- The operation that has the track takes a step. -/
theorem GivesBack.advance_own (h : GivesBack state l u)
    (a : u.Advances v 0 signal stage next told) (hallowed : leftAlone u (.advance 0 signal)) :
    GivesBack state l v := by
  obtain ⟨search, hpurpose⟩ := h.purpose
  have hstops : ∀ {op stage}, v.stage? op = some stage → op ≠ 0 → stage.isStopping = true := by
    intro op stage' hstage' hne
    rw [a.stage?_of_ne hne] at hstage'
    exact h.stops hstage' hne
  cases h.track with
  | carries hstage hcarries hitems =>
    obtain rfl := Option.some.inj (a.before.symm.trans hstage)
    rcases carriesBack_step hcarries hpurpose h.token.ne a.transition hallowed with
      ⟨hsame, hnext⟩ | ⟨hgiven, rfl⟩
    · have hstage' : v.stage? 0 = some next := a.stage?_self hnext.ne_finished
      exact h.keep hsame hstops (.carries hstage' hnext hitems)
    · have hstage' : v.stage? 0 = some (.close search.cascade (.ok .superseded) none) :=
        a.stage?_self (by simp)
      refine h.putBack hgiven hitems hstops ?_
      intro stage hclose
      exact ⟨_, _, _, Option.some.inj (hclose.symm.trans hstage')⟩
  | closes hcloses hitems =>
    obtain ⟨cascade, result, report, rfl⟩ := hcloses a.before
    obtain ⟨hsame, rfl⟩ := sameQueue_of_closes a.transition
    have hgone : v.stage? 0 = none := a.stage?_of_finished rfl
    refine h.keep hsame hstops (.closes ?_ hitems)
    intro stage hstage
    rw [hgone] at hstage
    cases hstage

/-- The stop takes a step. -/
theorem GivesBack.advance_stop (h : GivesBack state l u)
    (a : u.Advances v op signal stage next told) (hop : op ≠ 0) : GivesBack state l v := by
  obtain ⟨hsame, hnext⟩ := sameQueue_of_stops (h.stops a.before hop) a.transition
  have hkept : v.stage? 0 = u.stage? 0 := a.stage?_of_ne hop.symm
  refine h.keep hsame ?_ ?_
  · intro op' stage' hstage' hop'
    rcases a.stage?_cases hstage' with ⟨rfl, rfl⟩ | ⟨-, hold⟩
    · rcases hnext with hstops | ⟨answer, hover⟩
      · exact hstops
      · rw [a.stage?_of_finished hover] at hstage'
        cases hstage'
    · exact h.stops hold hop'
  · cases h.track with
    | carries hstage hcarries hitems => exact .carries (hkept.trans hstage) hcarries hitems
    | closes hcloses hitems => exact .closes (fun hstage => hcloses (hkept.symm.trans hstage)) hitems

theorem GivesBack.advance (h : GivesBack state l u) (a : u.Advances v op signal stage next told)
    (hallowed : leftAlone u (.advance op signal)) : GivesBack state l v := by
  by_cases hop : op = 0
  · subst hop
    exact h.advance_own a hallowed
  · exact h.advance_stop a hop

theorem GivesBack.run (h : GivesBack state l t) (run : t.Run leftAlone moves u) :
    GivesBack state l u := by
  refine run.invariant h ?_
  intro u v m hu hallowed hmove
  cases m with
  | arrive request => exact hallowed.elim
  | advance op signal =>
    obtain ⟨stage, next, told, a⟩ := advances_of_advance? hmove
    exact hu.advance a hallowed

/-- Nothing is in flight any more, so the track is back. -/
theorem GivesBack.items_of_quiet (h : GivesBack state l u) (hquiet : u.Quiet) :
    u.controller.state.queue.items = (state.queue.addFirst l.track).items := by
  cases h.track with
  | carries hstage =>
    rw [hquiet.stage?] at hstage
    cases hstage
  | closes hcloses hitems => exact hitems

/-- In a loop mode somebody stops while the resolver looks for the first track of a cascade.  When
both are over, the track is at the head of the queue, which is otherwise as the taking has left it,
and the track stays counted.  So the queue is as it was where the random loop had nothing to
shuffle, but the count is not, unless the random loop has set it to the one that it was. -/
theorem cancelled_start_leaves_trace {head : Track} {rest : List Track} {later : List Move}
    (hloop : c.state.mode.mode.isLoop = true) (hitems : c.state.queue.items = head :: rest)
    (hnodup : c.state.queue.NoDuplicates)
    (begun : (start c).Run anyMove (.arrive .playNext :: goes 0 n) s)
    (hstage : s.stage? 0 = some stage) (hresolving : Interruptible l stage)
    (stopped : s.Run anyMove [.arrive (.stop false), .advance 1 .go] t)
    (run : t.Run leftAlone later u) (hquiet : u.Quiet) :
    u.controller.state.mode =
        ⟨c.state.mode.mode, if c.state.Reshuffles then 1 else c.state.mode.playCount + 1⟩ ∧
      u.controller.state.queue.items =
        head :: (c.state.aroundHead head rest).filter (fun item => !item.same head) ∧
      (¬c.state.Reshuffles → head.same head = true →
        u.controller.state.queue.items = c.state.queue.items) ∧
      (u.controller.state.queue.items = c.state.queue.items ∧
          u.controller.state.mode = c.state.mode ↔
        head.same head = true ∧ c.state.mode.mode = .randomLoop ∧ c.state.mode.playCount = 1 ∧
          c.state.queue.items.length ≤ 2) := by
  obtain ⟨state, htaken, hgives⟩ := givesBack_of_stop (opensAlone_of_run begun) hstage hresolving
    stopped
  have hback := hgives.run run
  obtain ⟨htrack, hleft, hmode⟩ :=
    PlaybackState.takeNext?_of_isLoop (s := (c.openCascade none).1.state) hloop hitems htaken
  have hdiffers : ∀ item ∈ rest, head.Differs item := by
    rw [Queue.NoDuplicates, hitems] at hnodup
    exact (List.pairwise_cons.mp hnodup).1
  have hmode' : u.controller.state.mode =
        ⟨c.state.mode.mode, if c.state.Reshuffles then 1 else c.state.mode.playCount + 1⟩ :=
    hback.mode.trans hmode
  have hitems' : u.controller.state.queue.items =
      head :: (c.state.aroundHead head rest).filter (fun item => !item.same head) := by
    rw [hback.items_of_quiet hquiet, Queue.items_addFirst, htrack, hleft]
    rfl
  refine ⟨hmode', hitems', ?_, ?_⟩
  · intro hno hself
    rw [hitems', hitems, PlaybackState.aroundHead, if_neg hno, Queue.filter_rotated hdiffers hself]
  · have hnone := PlaybackState.untraced_iff hitems hdiffers
    rwa [← hitems', ← hmode'] at hnone

/-- Two tracks play in a loop, and somebody stops while the resolver looks for the first one.  The
queue is as before, but a track is counted that nobody has heard. -/
theorem cancelled_start_leaves_trace_of_loop :
    let c := blank.controller.update fun s =>
      { s with queue := ⟨[.remote "a", .remote "b"], []⟩, mode := ⟨.sequentialLoop, 0⟩ }
    let l : Launch := ⟨.remote "a", none, 0,
      .search ⟨(c.openCascade none).2, 2, 0, .start c.reportLimit⟩ 0⟩
    let s := (start c).after (.arrive .playNext :: goes 0 4)
    let t := s.after [.arrive (.stop false), .advance 1 .go]
    let later : List Move := .advance 0 .cancelled :: goes 0 2 ++ goes 1 2 ++
      [.advance 1 (.played (.ok ()))]
    let u := t.after later
    c.state.queue.NoDuplicates ∧ s.stage? 0 = some (.resolving l) ∧ t.Run leftAlone later u ∧
      u.Quiet ∧ u.controller.state.queue.items = c.state.queue.items ∧
      u.controller.state.mode.playCount = 1 ∧ c.state.mode.playCount = 0 ∧
      ¬(u.controller.state.queue.items = c.state.queue.items ∧
        u.controller.state.mode = c.state.mode) := by
  intro c l s t later u
  have hnodup : c.state.queue.NoDuplicates := by decide +kernel
  have begun : (start c).Run anyMove (.arrive .playNext :: goes 0 4) s :=
    run_after (by decide +kernel)
  have hstage : s.stage? 0 = some (.resolving l) := by decide +kernel
  have stopped : s.Run anyMove [.arrive (.stop false), .advance 1 .go] t :=
    run_after (by decide +kernel)
  have run : t.Run leftAlone later u :=
    run_after_of_passes (fun _ _ => leftAlone_of_isLeftAlone) (by decide +kernel)
  have hquiet : u.Quiet := show u.inFlight = [] by decide +kernel
  obtain ⟨hmode, -, hqueue, htrace⟩ :=
    cancelled_start_leaves_trace (by decide) rfl hnodup begun hstage .resolving stopped run hquiet
  have hno : ¬c.state.Reshuffles := by decide +kernel
  refine ⟨hnodup, hstage, run, hquiet, hqueue hno (by decide +kernel), ?_, rfl, ?_⟩
  · rw [hmode, if_neg hno]
    rfl
  · intro hnone
    exact absurd (htrace.mp hnone).2.1 (by decide)

end System

end Jukebox
