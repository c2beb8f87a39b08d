import Jukebox.Proofs.Playback.Unstopped

/-!
# Tracks that nobody tries

A track that is added while a cascade is pending starts nothing: the pending cascade is to come
to it.  But how many attempts a cascade makes is settled when it begins, and one that was opened
for a single track, or to go back, never looks into the queue.

On a run on which nobody stops and no track is taken out of the queue by hand, consider the last
move that opens a cascade or puts a track into the queue.  If the newest cascade can then reach
all tracks of the queue, each of those that are left in the end was tried since
(`System.tried_or_out_of_reach`).  From there on the queue consists of the tracks that are still
to come and of those that had their turn (`System.Covered`), or a track was started whose record
nobody takes away (`System.Playing`).
-/

namespace Jukebox

namespace System

variable {s t u v : System} {op n : Nat} {signal : Signal} {stage next : Stage}
  {told : List PlaybackEvent} {moves after : List Move} {m : Move}
  {track : Track} {rest done answered : List Track}

/-- The move opens a cascade, or puts a track into the queue. -/
def stirs (s : System) : Move → Bool
  | .arrive _ => false
  | .advance op signal =>
    (s.stage? op).any Stage.puts ||
      (s.advance? op signal).any fun t => decide (s.newest < t.newest)

/-- No cascade is opened, and no track comes into the queue. -/
def calm (s : System) (m : Move) : Prop := s.seeking m ∧ s.stirs m = false

/-- The newest cascade may still make an attempt with each of so many tracks, or has started
one. -/
def Within (s : System) (n : Nat) : Prop := ∃ op stage, s.NewestAt op stage ∧ stage.Reaches n

/-- The newest cascade comes to all tracks of the queue, if it starts none before.  In the random
loop it may leave some out unless the count of the lap is zero. -/
def InReach (s : System) : Prop :=
  s.Within s.controller.state.queue.items.length ∧
    (s.controller.state.mode.mode = .randomLoop → s.controller.state.mode.playCount = 0)

/-- The track for which the resolver or the player answers in the move. -/
def tried? (s : System) : Move → Option Track
  | .arrive _ => none
  | .advance op signal => (s.stage? op).bind (·.tried? signal)

/-- The tracks for which the resolver or the player answers in some moves. -/
def tried (s : System) : List Move → List Track
  | [] => []
  | m :: moves => (s.tried? m).toList ++ ((s.move? m).map fun t => t.tried moves).getD []

theorem tried_append {allowed : System → Move → Prop} (h : s.Run allowed moves t)
    (more : List Move) : s.tried (moves ++ more) = s.tried moves ++ t.tried more := by
  have hmoves := moves?_eq_some_of_run h
  clear h
  induction moves generalizing s with
  | nil =>
    obtain rfl : s = t := by simpa [moves?] using hmoves
    rfl
  | cons m moves ih =>
    obtain ⟨u, hmove, hrest⟩ := Option.bind_eq_some_iff.mp hmoves
    simp only [List.cons_append, tried, hmove, Option.map_some, Option.getD_some]
    rw [ih hrest, List.append_assoc]

theorem tried_snoc {allowed : System → Move → Prop} (h : s.Run allowed moves t) (m : Move) :
    s.tried (moves ++ [m]) = s.tried moves ++ (t.tried? m).toList := by
  have hone : t.tried [m] = (t.tried? m).toList := by
    cases hmove : t.move? m with
    | none => simp [tried, hmove]
    | some u => simp [tried, hmove]
  rw [tried_append h, hone]

theorem Within.mono {n m : Nat} (h : s.Within n) (hle : m ≤ n) : s.Within m := by
  obtain ⟨op, stage, hnewest, hreaches⟩ := h
  exact ⟨op, stage, hnewest, hreaches.mono hle⟩

/-- A step that is calm opens no cascade, and puts no track into the queue. -/
theorem Advances.of_calm (a : s.Advances t op signal stage next told)
    (hmove : s.move? (.advance op signal) = some t)
    (hcalm : s.stirs (.advance op signal) = false) :
    t.newest = s.newest ∧ stage.puts = false := by
  have hadvance : s.advance? op signal = some t := hmove
  have hle : s.newest ≤ t.newest := a.cascadeCount_le
  simp only [stirs, a.before, hadvance, Option.any_some, Bool.or_eq_false_iff,
    decide_eq_false_iff_not] at hcalm
  exact ⟨by omega, hcalm.1⟩

/-! ## The tracks that had their turn -/

/-- Nobody is inside the gate but the newest cascade. -/
def OnlyNewestInside (s : System) : Prop :=
  ∀ ⦃op stage⦄, s.stage? op = some stage → stage.isInside = true → s.NewestAt op stage

/-- The newest cascade has started no track. -/
def Unstarted (s : System) : Prop := ∀ ⦃op stage⦄, s.NewestAt op stage → stage.hasStarted = false

/-- Somebody has answered for the track, or an operation holds it for its attempt.  The
description may have changed since, if the last older start inside the gate went well. -/
def Accounted (answered : List Track) (s : System) (track : Track) : Prop :=
  ∃ other, (other ∈ answered ∨ ∃ op stage, s.stage? op = some stage ∧ stage.held? = some other) ∧
    (other = track ∨ other.same track = true ∧ s.OnlyNewestInside)

/-- The queue consists of the tracks that are still to come, and of those that had their turn. -/
structure Covered (answered : List Track) (s : System) (rest done : List Track) : Prop where
  items : s.controller.state.queue.items = rest ++ done
  reach : rest = [] ∨ s.Within rest.length
  accounted : ∀ track ∈ done, Accounted answered s track
  /-- In the random loop the queue is shuffled again only when nothing is to come. -/
  counted : s.controller.state.mode.mode = .randomLoop → rest ≠ [] →
    s.controller.state.mode.playCount = done.length
  unstarted : s.Unstarted

theorem OnlyNewestInside.arrive (h : s.OnlyNewestInside) (ho : s.Ordered) (request : Request) :
    (s.arrive request).OnlyNewestInside := by
  intro op stage hstage hinside
  rcases ho.stage?_arrive_cases hstage with ⟨-, rfl⟩ | ⟨-, hold⟩
  · cases hinside
  · exact (h hold hinside).arrive ho request

theorem OnlyNewestInside.advance (h : s.OnlyNewestInside) (hs : s.Unstopped)
    (a : s.Advances t op signal stage next told) (hsame : t.newest = s.newest) :
    t.OnlyNewestInside := by
  intro op' stage' hstage' hinside
  rcases a.stage?_cases hstage' with ⟨rfl, rfl⟩ | ⟨hne, hold⟩
  · cases hbefore : stage.isInside with
    | true =>
      refine (h a.before hbefore).advance a hsame ?_
      rw [Bool.eq_false_iff]
      intro hsettling
      rw [Stage.isInside_of_isSettling hsettling] at hbefore
      cases hbefore
    | false =>
      obtain ⟨hnewest, l, r, rfl⟩ := hs.newestAt_of_enters a hbefore hinside
      exact hnewest.advance a hsame rfl
  · exact (h hold hinside).advance_of_ne a hsame hne

/-- When an operation leaves the gate nobody is inside. -/
theorem Ordered.onlyNewestInside_of_leaves (ho : s.Ordered)
    (a : s.Advances t op signal stage next told) (hbefore : stage.isInside = true)
    (hafter : next.isInside = false) : t.OnlyNewestInside := by
  intro op' stage' hstage' hinside
  rcases a.stage?_cases hstage' with ⟨-, rfl⟩ | ⟨hne, hold⟩
  · rw [hafter] at hinside
    cases hinside
  · exact absurd (ho.alone a.before hbefore hold hinside) hne

theorem Accounted.arrive (h : Accounted answered s track) (ho : s.Ordered) (request : Request) :
    Accounted answered (s.arrive request) track := by
  obtain ⟨other, hother, hsame⟩ := h
  refine ⟨other, hother.imp_right ?_, hsame.imp_right (And.imp_right fun h => h.arrive ho request)⟩
  rintro ⟨op, stage, hstage, hheld⟩
  exact ⟨op, stage, ho.stage?_arrive_of_some hstage request, hheld⟩

/-- The track that an operation holds is held after the step, or somebody has answered for it. -/
theorem Advances.answered_or_held (a : s.Advances t op signal stage next told)
    (hputs : stage.puts = false)
    (h : track ∈ answered ∨ ∃ op stage, s.stage? op = some stage ∧ stage.held? = some track) :
    track ∈ answered ++ (stage.tried? signal).toList ∨
      ∃ op stage, t.stage? op = some stage ∧ stage.held? = some track := by
  rcases h with hanswered | ⟨op', stage', hstage', hheld⟩
  · exact .inl (List.mem_append_left _ hanswered)
  · by_cases hop : op' = op
    · subst hop
      obtain rfl := Option.some.inj (hstage'.symm.trans a.before)
      rcases a.transition.held hheld with hnext | htried | hback
      · refine .inr ⟨op', next, a.stage?_self ?_, hnext⟩
        rintro answer rfl
        cases hnext
      · exact .inl (List.mem_append_right _ (by simp [htried]))
      · rw [hputs] at hback
        cases hback
    · exact .inr ⟨op', stage', (a.stage?_of_ne hop).trans hstage', hheld⟩

theorem Accounted.advance (h : Accounted answered s track) (hs : s.Unstopped)
    (a : s.Advances t op signal stage next told) (hsame : t.newest = s.newest)
    (hputs : stage.puts = false) :
    Accounted (answered ++ (stage.tried? signal).toList) t track := by
  obtain ⟨other, hother, htrack⟩ := h
  exact ⟨other, a.answered_or_held hputs hother,
    htrack.imp_right (And.imp_right fun h => h.advance hs a hsame)⟩

theorem Covered.arrive (h : Covered answered s rest done) (ho : s.Ordered) (request : Request) :
    Covered answered (s.arrive request) rest done where
  items := h.items
  reach := by
    refine h.reach.imp_right ?_
    rintro ⟨op, stage, hnewest, hreaches⟩
    exact ⟨op, stage, hnewest.arrive ho request, hreaches⟩
  accounted := fun track htrack => (h.accounted track htrack).arrive ho request
  counted := h.counted
  unstarted := fun _ _ hnewest => h.unstarted (hnewest.of_arrive ho)

/-- The newest cascade reaches as many tracks after a step as before, unless it has taken one. -/
theorem Within.advance (h : s.Within n) (hs : s.Unstopped)
    (a : s.Advances t op signal stage next told) (hsame : t.newest = s.newest)
    (hn : n ≤ s.controller.state.queue.items.length) (hopen : s.Unstarted) :
    n = 0 ∨ t.Within n ∨ (∃ search, stage = .take search) ∧ t.Within (n - 1) := by
  obtain ⟨op', stage', hnewest, hreaches⟩ := h
  by_cases hop : op' = op
  · subst hop
    obtain rfl := Option.some.inj (hnewest.1.symm.trans a.before)
    have hnext := hnewest.advance a hsame hreaches.isSettling
    rcases Controller.reaches_of_step? a.step hreaches hn
      (fun _ hcascade => hnewest.token hs.numbered hcascade) (hopen hnewest) with
      hzero | hreaches' | ⟨htake, hreaches'⟩
    · exact .inl hzero
    · exact .inr (.inl ⟨op', next, hnext, hreaches'⟩)
    · exact .inr (.inr ⟨htake, op', next, hnext, hreaches'⟩)
  · exact .inr (.inl ⟨op', stage', hnewest.advance_of_ne a hsame hop, hreaches⟩)

/-- When a start goes well, the description of a track that had its turn may change. -/
theorem Covered.accounted_renewed (h : Covered answered s rest done) (hs : s.Unstopped)
    {l : Launch} {r : ResolvedTrack} {displaced : Option PlaybackRecord} {old : Track}
    (a : s.Advances t op signal (.commit l r displaced) next told)
    (hnext : next.isInside = false) (hputs : (Stage.commit l r displaced).puts = false)
    (hold : old ∈ done) (hdescription : old = track ∨ old.same track = true) :
    Accounted (answered ++ ((Stage.commit l r displaced).tried? signal).toList) t track := by
  obtain ⟨other, hother, hknown⟩ := h.accounted old hold
  -- This start is not the newest cascade's, so no description has changed before.
  obtain rfl : other = old := by
    rcases hknown with heq | ⟨-, honly⟩
    · exact heq
    · have hstarted := h.unstarted (honly a.before rfl)
      cases hstarted
  have honly := hs.ordered.onlyNewestInside_of_leaves a rfl hnext
  exact ⟨other, a.answered_or_held hputs hother,
    hdescription.imp_right fun hsame => ⟨hsame, honly⟩⟩

/-- As long as the newest cascade has started no track, the queue stays in two parts. -/
theorem Covered.advance (h : Covered answered s rest done) (hs : s.Unstopped)
    (a : s.Advances t op signal stage next told) (hsame : t.newest = s.newest)
    (hputs : stage.puts = false) (hopen : t.Unstarted) :
    ∃ rest' done', Covered (answered ++ (stage.tried? signal).toList) t rest' done' := by
  have hlength : rest.length ≤ s.controller.state.queue.items.length := by
    rw [h.items, List.length_append]
    omega
  have hreach : rest = [] ∨ t.Within rest.length ∨
      (∃ search, stage = .take search) ∧ t.Within (rest.length - 1) := by
    rcases h.reach with hnil | hwithin
    · exact .inl hnil
    · have hnext := hwithin.advance hs a hsame hlength h.unstarted
      exact hnext.imp_left List.eq_nil_of_length_eq_zero
  have haccounted : ∀ track ∈ done, Accounted (answered ++ (stage.tried? signal).toList) t track :=
    fun track htrack => (h.accounted track htrack).advance hs a hsame hputs
  cases a.transition.rearranges (hs.stage a.before) hputs with
  | keeps hitems hmode hempty =>
    refine ⟨rest, done, hitems.trans h.items, ?_, haccounted, by rw [hmode]; exact h.counted, hopen⟩
    rcases hreach with hnil | hwithin | ⟨⟨search, htake⟩, -⟩
    · exact .inl hnil
    · exact .inr hwithin
    · have hall := hempty search htake
      rw [h.items] at hall
      exact .inl (List.append_eq_nil_iff.mp hall).1
  | @takes search taken hstage hadvance hitems hmode hheld =>
    rw [h.items] at hadvance
    obtain ⟨later, hqueue, hlater, hcount⟩ := exists_append_of_advance? hadvance h.counted
    refine ⟨rest.tail, later, hitems.trans hqueue, ?_, ?_, by rw [hmode]; exact hcount, hopen⟩
    · rw [List.length_tail]
      rcases hreach with hnil | hwithin | ⟨-, hwithin⟩
      · exact .inl (by rw [hnil, List.tail_nil])
      · exact .inr (hwithin.mono (Nat.sub_le _ _))
      · exact .inr hwithin
    · intro track htrack
      rcases hlater track htrack with hdone | rfl
      · exact haccounted track hdone
      · refine ⟨taken.track, .inr ⟨op, next, a.stage?_self ?_, hheld⟩, .inl rfl⟩
        rintro answer rfl
        cases hheld
  | @refreshes l r displaced hstage hitems hmode hnext =>
    subst hstage
    obtain ⟨before, later, hqueue, hbefore, hlater, hrenewed⟩ :=
      Queue.exists_append_of_refresh h.items r.track
    have hnil : rest = [] ↔ before = [] := by
      rw [← List.length_eq_zero_iff, ← hbefore, List.length_eq_zero_iff]
    refine ⟨before, later, hitems.trans hqueue, ?_, ?_, ?_, hopen⟩
    · rcases hreach with hrest | hwithin | ⟨⟨search, htake⟩, -⟩
      · exact .inl (hnil.mp hrest)
      · exact .inr (hbefore ▸ hwithin)
      · cases htake
    · intro track htrack
      obtain ⟨old, hold, hdescription⟩ := hrenewed track htrack
      exact h.accounted_renewed hs a hnext hputs hold hdescription
    · intro hrandom hne
      rw [hmode] at hrandom ⊢
      rw [hlater]
      exact h.counted hrandom fun hrest => hne (hnil.mp hrest)

/-! ## A whole run -/

theorem Unstopped.playing_or_unstarted (h : s.Unstopped) : s.Playing ∨ s.Unstarted := by
  by_cases hstarted : ∃ op stage, s.NewestAt op stage ∧ stage.hasStarted = true
  · obtain ⟨op, stage, hnewest, hstarted⟩ := hstarted
    exact .inl (h.playing hnewest hstarted)
  · right
    intro op stage hnewest
    rw [Bool.eq_false_iff]
    exact fun hone => hstarted ⟨op, stage, hnewest, hone⟩

/-- From a moment on at which the newest cascade reaches all tracks of the queue, as long as
nothing stirs. -/
theorem playing_or_covered (hv : v.Unstopped) (hreach : v.InReach) (run : v.Run calm after t) :
    t.Unstopped ∧ (t.Playing ∨ ∃ rest done, Covered (v.tried after) t rest done) := by
  induction run with
  | nil =>
    refine ⟨hv, hv.playing_or_unstarted.imp_right fun hopen => ?_⟩
    exact ⟨v.controller.state.queue.items, [], (List.append_nil _).symm, .inr hreach.1, nofun,
      fun hmode _ => hreach.2 hmode, hopen⟩
  | @snoc after s t m run hallowed hmove ih =>
    obtain ⟨hs, hphase⟩ := ih
    rw [tried_snoc run]
    cases m with
    | arrive request =>
      obtain rfl : s.arrive request = t := by simpa [move?] using hmove
      refine ⟨hs.arrive hallowed.1, hphase.imp (fun h => h.arrive hs.ordered request) ?_⟩
      rintro ⟨rest, done, h⟩
      exact ⟨rest, done, by simpa [tried?] using h.arrive hs.ordered request⟩
    | advance op signal =>
      obtain ⟨stage, next, told, a⟩ := advances_of_advance? hmove
      obtain ⟨hsame, hputs⟩ := a.of_calm hmove hallowed.2
      have ht := hs.advance a
      refine ⟨ht, ?_⟩
      rcases hphase with hplaying | ⟨rest, done, h⟩
      · exact .inl (hplaying.advance hs a hsame)
      · refine ht.playing_or_unstarted.imp_right fun hopen => ?_
        simpa [tried?, a.before] using h.advance hs a hsame hputs hopen

/-- The last move of a run that opens a cascade or puts a track into the queue leads to one
system, and the moves after it to another. -/
def LastStir (s : System) (moves : List Move) (v : System) (after : List Move) (t : System) :
    Prop :=
  ∃ before m u, moves = before ++ m :: after ∧ s.Run seeking before u ∧ u.stirs m = true ∧
    u.move? m = some v ∧ v.Run calm after t

theorem LastStir.snoc (h : s.LastStir moves v after t) (hcalm : calm t m)
    (hmove : t.move? m = some u) : s.LastStir (moves ++ [m]) v (after ++ [m]) u := by
  obtain ⟨before, last, w, rfl, hbefore, hstirs, hlast, hafter⟩ := h
  exact ⟨before, last, w, by simp, hbefore, hstirs, hlast, hafter.snoc hcalm hmove⟩

theorem LastStir.exists_run (h : s.LastStir moves v after t) (run : s.Run seeking moves t) :
    ∃ before, moves = before ++ after ∧ s.Run seeking before v := by
  obtain ⟨before, m, u, rfl, hbefore, -, hmove, -⟩ := h
  obtain ⟨w, hallowed, -, -⟩ := run.next hbefore
  exact ⟨before ++ [m], by simp, hbefore.snoc hallowed hmove⟩

theorem Advances.items_eq_nil (a : s.Advances t op signal stage next told) (hs : s.Unstopped)
    (hputs : stage.puts = false) (hitems : s.controller.state.queue.items = []) :
    t.controller.state.queue.items = [] := by
  cases a.transition.rearranges (hs.stage a.before) hputs with
  | keeps hkept => exact hkept.trans hitems
  | takes _ hadvance =>
    rw [hitems] at hadvance
    cases hadvance
  | refreshes _ hrefreshed => exact hrefreshed.trans (Queue.refresh_items_eq_nil.mpr hitems)

/-- Where there are tracks in the queue, some move has put them there. -/
theorem items_eq_nil_or_lastStir (hs : s.Unstopped)
    (hitems : s.controller.state.queue.items = []) (run : s.Run seeking moves t) :
    t.controller.state.queue.items = [] ∨ ∃ v after, s.LastStir moves v after t := by
  induction run with
  | nil => exact .inl hitems
  | @snoc moves t u m run hallowed hmove ih =>
    cases hstirs : t.stirs m with
    | true => exact .inr ⟨u, [], moves, m, t, rfl, run, hstirs, hmove, .nil⟩
    | false =>
      rcases ih with hempty | ⟨v, after, h⟩
      · left
        cases m with
        | arrive request =>
          obtain rfl : t.arrive request = u := by simpa [move?] using hmove
          exact hempty
        | advance op signal =>
          obtain ⟨stage, next, told, a⟩ := advances_of_advance? hmove
          exact a.items_eq_nil (hs.run run) (a.of_calm hmove hstirs).2 hempty
      · exact .inr ⟨v, after ++ [m], h.snoc ⟨hallowed, hstirs⟩ hmove⟩

/-- With no operation in flight and no current track, a track is left in the queue only after a
last move that opened a cascade or put a track into the queue.  It was tried since, or the newest
cascade could not reach all tracks any more when that move was made. -/
theorem tried_or_out_of_reach (account : Account) (self : Nat) (words : RandomWords)
    (run : (start (Controller.start account self words)).Run seeking moves t)
    (hquiet : t.Quiet) (hrecord : t.controller.state.record = none)
    (htrack : track ∈ t.controller.state.queue.items) :
    ∃ v after, (start (Controller.start account self words)).LastStir moves v after t ∧
      (v.InReach → ∃ other ∈ v.tried after, other = track ∨ other.same track = true) := by
  have hs := unstopped_start account self words
  rcases items_eq_nil_or_lastStir hs rfl run with hempty | ⟨v, after, h⟩
  · rw [hempty] at htrack
    cases htrack
  · refine ⟨v, after, h, fun hreach => ?_⟩
    obtain ⟨before, -, hbefore⟩ := h.exists_run run
    obtain ⟨-, -, -, -, -, -, -, hafter⟩ := h
    obtain ⟨-, ⟨⟨n, hcurrent, -⟩, -, -⟩ | ⟨rest, done, hcovered⟩⟩ :=
      playing_or_covered (hs.run hbefore) hreach hafter
    · simp [PlaybackState.serial?, hrecord] at hcurrent
    · have hrest : rest = [] := by
        refine hcovered.reach.resolve_right ?_
        rintro ⟨op, stage, ⟨hstage, -⟩, -⟩
        rw [hquiet.stage?] at hstage
        cases hstage
      rw [hcovered.items, hrest, List.nil_append] at htrack
      obtain ⟨other, hanswered | ⟨op, stage, hstage, -⟩, hsame⟩ := hcovered.accounted track htrack
      · exact ⟨other, hanswered, hsame.imp_right And.left⟩
      · rw [hquiet.stage?] at hstage
        cases hstage

/-! ## A track that is added while another is resolved

The cascade was opened for the one track that was there, and when that cannot be resolved its
only attempt is over. -/

/-- Whether the move is allowed wherever it is made. -/
def isSeeking : Move → Bool
  | .arrive request => request.seeks
  | .advance _ _ => true

theorem seeking_of_isSeeking (h : isSeeking m = true) (v : System) : seeking v m := by
  cases m with
  | arrive request => exact h
  | advance op signal => trivial

theorem tried_or_out_of_reach_of_enqueue :
    let moves : List Move := .arrive (.enqueue (.remote "a")) :: goes 0 4 ++
      .arrive (.enqueue (.remote "b")) :: goes 1 1 ++
      .advance 0 (.resolved (.error (.resolution "gone"))) :: goes 0 3
    let t := blank.after moves
    blank.Run seeking moves t ∧ t.Quiet ∧ t.controller.state.record = none ∧
      t.controller.state.queue.items = [.remote "b"] ∧
      t.answer? 1 = some (.outcome (.ok (.queued 1))) ∧
      t.answer? 0 = some (.outcome (.ok .exhausted)) ∧
      blank.tried moves = [.remote "a"] ∧ ∃ v after, blank.LastStir moves v after t ∧ ¬v.InReach := by
  intro moves t
  have hseeking : moves.all isSeeking = true := by decide +kernel
  have hrun : blank.Run seeking moves t :=
    run_after_of_allowed
      (fun v m hm => seeking_of_isSeeking (List.all_eq_true.mp hseeking m hm) v)
      (by decide +kernel)
  have hquiet : t.inFlight = [] := by decide +kernel
  have hrecord : t.controller.state.record = none := by decide +kernel
  have hitems : t.controller.state.queue.items = [.remote "b"] := by decide +kernel
  have htried : blank.tried moves = [.remote "a"] := by decide +kernel
  refine ⟨hrun, hquiet, hrecord, hitems, by decide +kernel, by decide +kernel, htried, ?_⟩
  obtain ⟨v, after, h, hreach⟩ : ∃ v after, blank.LastStir moves v after t ∧ (v.InReach →
      ∃ other ∈ v.tried after, other = .remote "b" ∨ other.same (.remote "b") = true) :=
    tried_or_out_of_reach ⟨default, ⟨[], .standard⟩, .empty⟩ 0 [] hrun hquiet hrecord
      (hitems ▸ List.mem_singleton_self _)
  refine ⟨v, after, h, fun hin => ?_⟩
  obtain ⟨other, hother, hsame⟩ := hreach hin
  obtain ⟨before, hmoves, hbefore⟩ := h.exists_run hrun
  rw [hmoves, tried_append hbefore] at htried
  have hall : other ∈ blank.tried before ++ v.tried after := List.mem_append_right _ hother
  rw [htried, List.mem_singleton] at hall
  subst hall
  revert hsame
  decide

end System

end Jukebox
