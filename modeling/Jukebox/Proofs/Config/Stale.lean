import Jukebox.Config.System
import Jukebox.Proofs.Files
import Jukebox.Proofs.Moves

/-!
# When the file and the settings disagree

A change of the settings copies them and writes its copy in a later step.  The last that happens
before no change is under way any more is such a write.  So the file holds the settings, unless
the last copy to be written was overtaken: others changed the settings after it was made
(`ConfigSystem.unsaved_iff_endsOvertaken`).
-/

namespace Jukebox

/-- What may happen next, told by what brings it about: a change comes in, or the change at some
place among those under way takes a step. -/
inductive ConfigMove where
  | arrive (change : ConfigChange)
  | proceed (place : Nat)

namespace ConfigSystem

variable {s t u v : ConfigSystem} {m : ConfigMove} {moves : List ConfigMove} {place : Nat}
  {stage : WritingStage} {before after : List WritingStage} {copy : Config} {kept kept' : Prop}

/-! ## Runs -/

/-- The system after a move; `none` where the move cannot be made. -/
def move? (s : ConfigSystem) : ConfigMove → Option ConfigSystem
  | .arrive change => some { s with inFlight := s.inFlight ++ [.change change] }
  | .proceed place =>
    s.inFlight[place]?.map fun stage =>
      s.advance (s.inFlight.take place) stage (s.inFlight.drop (place + 1))

/-- The moves lead from one system to another. -/
def Run (s : ConfigSystem) (moves : List ConfigMove) (t : ConfigSystem) : Prop :=
  Moves.Lead move? s moves t

theorem take_append_cons_drop (h : s.inFlight[place]? = some stage) :
    s.inFlight = s.inFlight.take place ++ stage :: s.inFlight.drop (place + 1) := by
  obtain ⟨hplace, rfl⟩ := List.getElem?_eq_some_iff.mp h
  rw [List.getElem_cons_drop, List.take_append_drop]

theorem step_iff_exists_move : Step s t ↔ ∃ m, s.move? m = some t := by
  constructor
  · intro h
    cases h with
    | arrive change => exact ⟨.arrive change, rfl⟩
    | advance before stage after h =>
      refine ⟨.proceed before.length, ?_⟩
      simp [move?, h]
  · rintro ⟨m, h⟩
    cases m with
    | arrive change =>
      obtain rfl := Option.some.inj h
      exact .arrive s change
    | proceed place =>
      obtain ⟨stage, hstage, rfl⟩ := Option.map_eq_some_iff.mp h
      exact .advance _ stage _ (take_append_cons_drop hstage)

/-- A system is reached exactly if a run leads to it. -/
theorem reaches_iff_exists_run : Reaches s t ↔ ∃ moves, s.Run moves t := by
  constructor
  · intro h
    induction h with
    | refl => exact ⟨[], Moves.lead_nil_iff.mpr rfl⟩
    | tail _ step ih =>
      obtain ⟨moves, hrun⟩ := ih
      obtain ⟨m, hm⟩ := step_iff_exists_move.mp step
      exact ⟨moves ++ [m], Moves.Lead.snoc hrun hm⟩
  · rintro ⟨moves, hrun⟩
    refine Moves.Lead.invariant (P := fun _ t => Reaches s t) hrun .refl ?_
    intro moves t u m _ h hm
    exact h.tail (step_iff_exists_move.mpr ⟨m, hm⟩)

/-! ## One step of a change -/

theorem advance_path (s : ConfigSystem) (before : List WritingStage) (stage : WritingStage)
    (after : List WritingStage) : (s.advance before stage after).store.path = s.store.path := by
  cases stage <;> rfl

/-- Only the first step of a change changes the settings. -/
theorem advance_current (h : ∀ change, stage ≠ .change change) :
    (s.advance before stage after).store.current = s.store.current := by
  cases stage with
  | change change => exact absurd rfl (h change)
  | _ => rfl

theorem inFlight_advance (s : ConfigSystem) (before : List WritingStage) (stage : WritingStage)
    (after : List WritingStage) :
    (s.advance before stage after).inFlight =
      before ++ (stage.proceed s.store s.files).2.2.pending ++ after := rfl

/-- A copy that is about to be written has just been made, or was about to be before. -/
theorem mem_of_write_mem_advance (h : .write copy ∈ (s.advance before stage after).inFlight) :
    stage = .copy ∧ s.store.current = copy ∨ .write copy ∈ before ++ stage :: after := by
  rw [inFlight_advance, List.mem_append, List.mem_append] at h
  rcases h with (h | h) | h
  · exact .inr (List.mem_append_left _ h)
  · cases stage with
    | copy => exact .inl ⟨rfl, by simpa [WritingStage.proceed, WritingStage.pending, eq_comm] using h⟩
    | _ => simp [WritingStage.proceed, WritingStage.pending] at h
  · exact .inr (List.mem_append_right _ (List.mem_cons_of_mem _ h))

/-- Nobody who is still under way has finished. -/
def NoneFinished (s : ConfigSystem) : Prop := ∀ result, .finished result ∉ s.inFlight

theorem NoneFinished.move (h : s.NoneFinished) (hmove : s.move? m = some t) : t.NoneFinished := by
  intro result hmem
  cases m with
  | arrive change =>
    obtain rfl := Option.some.inj hmove
    simp only [List.mem_append, List.mem_singleton, reduceCtorEq, or_false] at hmem
    exact h result hmem
  | proceed place =>
    obtain ⟨stage, hstage, rfl⟩ := Option.map_eq_some_iff.mp hmove
    rw [inFlight_advance, List.mem_append, List.mem_append] at hmem
    rcases hmem with (hmem | hmem) | hmem
    · exact h result (List.mem_of_mem_take hmem)
    · cases stage <;> simp [WritingStage.proceed, WritingStage.pending] at hmem
    · exact h result (List.mem_of_mem_drop hmem)

/-! ## Overtaken copies -/

/-- On the run somebody changes the settings. -/
def Changed (s : ConfigSystem) (moves : List ConfigMove) : Prop :=
  ∃ before place after u change, moves = before ++ .proceed place :: after ∧
    s.Run before u ∧ u.inFlight[place]? = some (.change change)

/-- On the run the settings are copied, and then `kept` holds or somebody changes them. -/
def CopiedSince (s : ConfigSystem) (moves : List ConfigMove) (copy : Config) (kept : Prop) :
    Prop :=
  ∃ before place after u v, moves = before ++ .proceed place :: after ∧ s.Run before u ∧
    u.inFlight[place]? = some .copy ∧ u.store.current = copy ∧
    u.move? (.proceed place) = some v ∧ (kept ∨ v.Changed after)

/-- Somebody has changed the settings since this copy was made. -/
def Overtaken (s : ConfigSystem) (moves : List ConfigMove) (copy : Config) : Prop :=
  s.CopiedSince moves copy False

theorem Changed.snoc (h : s.Changed moves) (m : ConfigMove) : s.Changed (moves ++ [m]) := by
  obtain ⟨before, place, after, u, change, rfl, hrun, hstage⟩ := h
  exact ⟨before, place, after ++ [m], u, change, by simp, hrun, hstage⟩

theorem CopiedSince.snoc (h : s.CopiedSince moves copy kept) (hkept : kept → kept')
    (m : ConfigMove) : s.CopiedSince (moves ++ [m]) copy kept' := by
  obtain ⟨before, place, after, u, v, rfl, hrun, hstage, hcopy, hmove, hor⟩ := h
  exact ⟨before, place, after ++ [m], u, v, by simp, hrun, hstage, hcopy, hmove,
    hor.imp hkept fun hchanged => hchanged.snoc m⟩

/-- When the settings are changed, every copy is overtaken. -/
theorem CopiedSince.changed {change : ConfigChange} (h : s.CopiedSince moves copy kept)
    (hrun : s.Run moves t) (hstage : t.inFlight[place]? = some (.change change)) :
    s.CopiedSince (moves ++ [.proceed place]) copy kept' := by
  obtain ⟨before, place', after, u, v, rfl, hbefore, hcopying, hcopy, hmove, -⟩ := h
  obtain ⟨v', hmove', hafter⟩ := Moves.Lead.next hrun hbefore
  obtain rfl := Option.some.inj (hmove.symm.trans hmove')
  exact ⟨before, place', after ++ [.proceed place], u, v, by simp, hbefore, hcopying, hcopy, hmove,
    .inr ⟨after, place, [], t, change, rfl, hafter, hstage⟩⟩

/-- Whoever is about to write has copied the settings as they are, or was overtaken. -/
theorem copiedSince_of_run (hs : s.Quiet) (h : s.Run moves t) :
    ∀ copy, .write copy ∈ t.inFlight → s.CopiedSince moves copy (t.store.current = copy) := by
  refine Moves.Lead.invariant (P := fun moves t => ∀ copy, .write copy ∈ t.inFlight →
    s.CopiedSince moves copy (t.store.current = copy)) h ?_ ?_
  · intro copy hmem
    rw [hs] at hmem
    cases hmem
  intro moves t u m hrun ih hmove copy hmem
  cases m with
  | arrive change =>
    obtain rfl := Option.some.inj hmove
    simp only [List.mem_append, List.mem_singleton, reduceCtorEq, or_false] at hmem
    exact (ih copy hmem).snoc id _
  | proceed place =>
    obtain ⟨stage, hstage, rfl⟩ := Option.map_eq_some_iff.mp hmove
    rcases mem_of_write_mem_advance hmem with ⟨rfl, hcopy⟩ | hmem
    · exact ⟨moves, place, [], t, _, rfl, hrun, hstage, hcopy, hmove, .inl hcopy⟩
    · have hsince := ih copy (take_append_cons_drop hstage ▸ hmem)
      cases stage with
      | change change => exact hsince.changed hrun hstage
      | _ => exact hsince.snoc id _

/-! ## The last write -/

/-- The file holds the settings. -/
def IsSaved (s : ConfigSystem) : Prop :=
  s.files.read s.store.path = .ok s.store.current.toYaml

/-- Every write on the run succeeds. -/
def WritesSucceed (s : ConfigSystem) (moves : List ConfigMove) : Prop :=
  ∀ before place after u copy, moves = before ++ .proceed place :: after → s.Run before u →
    u.inFlight[place]? = some (.write copy) →
    (({ u.store with current := copy } : ConfigStore).save u.files).2 = .ok ()

/-- The run ends with the write of a copy that was overtaken, and the settings have another text
by then. -/
def EndsOvertaken (s : ConfigSystem) (moves : List ConfigMove) : Prop :=
  ∃ before u copy, moves = before ++ [.proceed 0] ∧ s.Run before u ∧
    u.inFlight = [.write copy] ∧ s.Overtaken before copy ∧
    copy.toYaml ≠ u.store.current.toYaml

/-- The last move before no change is under way is a write, with no other change under way. -/
theorem exists_last_write (hs : s.Quiet) (h : s.Run moves t) (ht : t.Quiet) (hne : moves ≠ []) :
    ∃ before u copy, moves = before ++ [.proceed 0] ∧ s.Run before u ∧
      u.inFlight = [.write copy] ∧ t = u.advance [] (.write copy) [] := by
  have hnone : ∀ {moves u}, s.Run moves u → u.NoneFinished := by
    intro moves u hrun
    refine Moves.Lead.invariant (P := fun _ t => NoneFinished t) hrun ?_ fun _ h hm => h.move hm
    intro result hmem
    rw [hs] at hmem
    cases hmem
  obtain ⟨before, m, rfl⟩ := (List.eq_nil_or_concat' moves).resolve_left hne
  obtain ⟨u, hrun, hmove⟩ := Moves.lead_snoc_iff.mp h
  cases m with
  | arrive change =>
    obtain rfl := Option.some.inj hmove
    simp [Quiet] at ht
  | proceed place =>
    obtain ⟨stage, hstage, rfl⟩ := Option.map_eq_some_iff.mp hmove
    rw [Quiet, inFlight_advance, List.append_eq_nil_iff, List.append_eq_nil_iff] at ht
    obtain ⟨⟨hbefore, hpending⟩, hafter⟩ := ht
    have hinFlight := take_append_cons_drop hstage
    rw [hbefore, hafter, List.nil_append] at hinFlight
    cases stage with
    | write copy =>
      have hplace : place = 0 := by
        rw [hinFlight, List.getElem?_singleton] at hstage
        by_contra hne
        rw [if_neg hne] at hstage
        cases hstage
      subst hplace
      exact ⟨before, u, copy, rfl, hrun, hinFlight, by rw [hafter]; rfl⟩
    | finished result =>
      refine absurd ?_ (hnone hrun result)
      rw [hinFlight]
      exact List.mem_singleton_self _
    | _ => simp [WritingStage.proceed, WritingStage.pending] at hpending

theorem read_advance_write
    (h : (({ s.store with current := copy } : ConfigStore).save s.files).2 = .ok ()) :
    (s.advance before (.write copy) after).files.read s.store.path = .ok copy.toYaml := by
  have hfiles : (s.advance before (.write copy) after).files =
      (({ s.store with current := copy } : ConfigStore).save s.files).1 := rfl
  rw [hfiles]
  cases hmade : s.files.makeDirectories s.store.path.dropLast with
  | error e =>
    simp only [ConfigStore.save, hmade] at h
    cases h
  | ok made =>
    simp only [ConfigStore.save, hmade] at h ⊢
    obtain ⟨hwrite, -⟩ := Files.tryWrite_eq_ok_iff.mp (Prod.ext rfl h)
    exact Files.read_write hwrite

/-- Where all writes succeed and no change is under way any more, the file does not hold the
settings exactly if the last copy to be written was overtaken and the settings have another text
by then. -/
theorem unsaved_iff_endsOvertaken (hs : s.Quiet) (h : s.Run moves t) (ht : t.Quiet)
    (hsaved : moves = [] → s.IsSaved) (hwrites : s.WritesSucceed moves) :
    ¬t.IsSaved ↔ s.EndsOvertaken moves := by
  constructor
  · intro hunsaved
    have hne : moves ≠ [] := by
      rintro rfl
      obtain rfl := Moves.lead_nil_iff.mp h
      exact hunsaved (hsaved rfl)
    obtain ⟨before, u, copy, rfl, hrun, hinFlight, rfl⟩ := exists_last_write hs h ht hne
    have hread : (u.advance [] (.write copy) []).files.read u.store.path = .ok copy.toYaml :=
      read_advance_write (hwrites before 0 [] u copy rfl hrun (by simp [hinFlight]))
    have htext : copy.toYaml ≠ u.store.current.toYaml := by
      intro heq
      apply hunsaved
      rw [IsSaved, advance_path, hread, heq, advance_current (by simp)]
    have hmem : .write copy ∈ u.inFlight := by simp [hinFlight]
    have hovertaken : s.Overtaken before copy := by
      obtain ⟨first, place, last, v, w, hfirst, hv, hcopying, hcopy, hmove, hor⟩ :=
        copiedSince_of_run hs hrun copy hmem
      refine ⟨first, place, last, v, w, hfirst, hv, hcopying, hcopy, hmove, .inr ?_⟩
      refine hor.resolve_left ?_
      rintro rfl
      exact htext rfl
    exact ⟨before, u, copy, rfl, hrun, hinFlight, hovertaken, htext⟩
  · rintro ⟨before, u, copy, rfl, hrun, hinFlight, -, htext⟩ hstill
    obtain ⟨u', hrun', hmove⟩ := Moves.lead_snoc_iff.mp h
    obtain rfl := hrun.target_unique hrun'
    obtain rfl : u.advance [] (.write copy) [] = t := by
      simpa [move?, hinFlight] using hmove
    have hread : (u.advance [] (.write copy) []).files.read u.store.path = .ok copy.toYaml :=
      read_advance_write (hwrites before 0 [] u copy rfl hrun (by simp [hinFlight]))
    rw [IsSaved, advance_path, hread, advance_current (by simp)] at hstill
    exact htext (Except.ok.inj hstill)

/-! ## A file in the root directory -/

/-- A file in the root directory can always be written. -/
theorem save_of_root {store : ConfigStore} {files : Files} {name : String}
    (hpath : store.path = [name]) (hname : Files.isName name = true) (hup : name ≠ "..")
    (hplain : Files.IsPlain (files.node? [name])) :
    store.save files = (files.put [name] (.file store.current.toYaml), .ok ()) := by
  have hresolve : files.resolve [name] = .ok [name] := Files.follow_plain hname hup hplain _
  have hmade : files.makeDirectories [] = .ok files := rfl
  have hwrite : files.write [name] store.current.toYaml =
      .ok (files.put [name] (.file store.current.toYaml)) := by
    simp only [Files.write, hresolve, bind, Except.bind]
    split
    · next hnode => exact absurd hnode hplain.ne_directory
    · rfl
  simp [ConfigStore.save, Files.tryWrite, hpath, hmade, hwrite]

theorem writesSucceed_of_root {name : String} (hpath : s.store.path = [name])
    (hname : Files.isName name = true) (hup : name ≠ "..")
    (hplain : Files.IsPlain (s.files.node? [name])) : s.WritesSucceed moves := by
  intro before place after u copy _ hrun _
  suffices h : u.store.path = [name] ∧ Files.IsPlain (u.files.node? [name]) by
    have hsave := @save_of_root ⟨u.store.path, copy⟩ _ _ h.1 hname hup h.2
    exact congrArg Prod.snd hsave
  refine Moves.Lead.invariant (P := fun _ u => u.store.path = [name] ∧
    Files.IsPlain (u.files.node? [name])) hrun ⟨hpath, hplain⟩ ?_
  rintro moves t u m - ⟨hpath, hplain⟩ hmove
  cases m with
  | arrive change =>
    obtain rfl := Option.some.inj hmove
    exact ⟨hpath, hplain⟩
  | proceed place =>
    obtain ⟨stage, -, rfl⟩ := Option.map_eq_some_iff.mp hmove
    refine ⟨(advance_path _ _ _ _).trans hpath, ?_⟩
    cases stage with
    | write copy =>
      have hsave := @save_of_root ⟨t.store.path, copy⟩ _ _ hpath hname hup hplain
      have hfiles : ∀ before after, (t.advance before (.write copy) after).files =
          t.files.put [name] (.file copy.toYaml) := fun _ _ => congrArg Prod.fst hsave
      rw [hfiles, Files.node?_put (by simp), if_pos rfl]
      exact .inr ⟨_, rfl⟩
    | _ => exact hplain

/-! ## The text of settings -/

theorem fieldsText_append (level : Nat) (fields rest : List (String × Setting)) :
    Yaml.fieldsText level (fields ++ rest) =
      Yaml.fieldsText level fields ++ Yaml.fieldsText level rest := by
  induction fields with
  | nil => simp [Yaml.fieldsText]
  | cons field fields ih =>
    obtain ⟨name, setting⟩ := field
    rw [List.cons_append, Yaml.fieldsText, Yaml.fieldsText, ih]
    simp only [String.append_assoc]

/-- Two records that first differ in a flag have different texts. -/
theorem fieldsText_flag_ne (level : Nat) (fields rest rest' : List (String × Setting))
    (name : String) :
    Yaml.fieldsText level (fields ++ (name, .flag false) :: rest) ≠
      Yaml.fieldsText level (fields ++ (name, .flag true) :: rest') := by
  intro heq
  have htext := congrArg String.toList heq
  simp [fieldsText_append, Yaml.fieldsText, Yaml.settingText] at htext

/-- The text of the settings tells the kind of login. -/
theorem toYaml_ne_of_isQrLogin {c c' : Config} (hversion : c.version = c'.version)
    (hmode : c.playMode = c'.playMode) (haddress : c.apiBaseUrl = c'.apiBaseUrl)
    (hqr : c.isQrLogin = false) (hqr' : c'.isQrLogin = true) : c.toYaml ≠ c'.toYaml := by
  let fields : List (String × Setting) := [("version", .number c.version),
    ("playMode", .text c.playMode.name), ("apiBaseUrl", .text c.apiBaseUrl)]
  obtain ⟨rest, hrest⟩ : ∃ rest,
      c.toYaml = Yaml.fieldsText 0 (fields ++ ("isQrLogin", .flag c.isQrLogin) :: rest) :=
    ⟨_, rfl⟩
  obtain ⟨rest', hrest'⟩ : ∃ rest,
      c'.toYaml = Yaml.fieldsText 0 (fields ++ ("isQrLogin", .flag c'.isQrLogin) :: rest) := by
    simp only [fields, hversion, hmode, haddress]
    exact ⟨_, rfl⟩
  rw [hrest, hrest', hqr, hqr']
  exact fieldsText_flag_ne 0 fields rest rest' "isQrLogin"

/-- The new mode is copied, a login comes in between and is written, and then the copy without
the login is written over it. -/
theorem unsaved_iff_endsOvertaken_of_login :
    let s : ConfigSystem := ⟨⟨["bot.yml"], .standard⟩, .empty, []⟩
    let moves : List ConfigMove := [.arrive (.mode .random), .proceed 0, .proceed 0,
      .arrive (.session "MUSIC_U=u" true), .proceed 1, .proceed 1, .proceed 1, .proceed 0]
    ∃ t, s.Run moves t ∧ t.Quiet ∧ s.WritesSucceed moves ∧ s.EndsOvertaken moves ∧
      ¬t.IsSaved := by
  intro s moves
  let first : List ConfigMove := [.arrive (.mode .random), .proceed 0]
  let login : List ConfigMove :=
    [.arrive (.session "MUSIC_U=u" true), .proceed 1, .proceed 1, .proceed 1]
  have hquiet : s.Quiet := rfl
  have hwrites : s.WritesSucceed moves :=
    writesSucceed_of_root rfl (by decide +kernel) (by decide +kernel) (.inl rfl)
  let copied : Config := Config.standard.withMode .random
  have htext : copied.toYaml ≠ (copied.withSession "MUSIC_U=u" true).toYaml :=
    toYaml_ne_of_isQrLogin rfl rfl rfl rfl rfl
  have hends : s.EndsOvertaken moves := by
    refine ⟨first ++ .proceed 0 :: login, _, copied, rfl, rfl, rfl,
      ⟨first, 0, login, _, _, rfl, rfl, rfl, rfl, rfl, .inr ?_⟩, htext⟩
    exact ⟨[.arrive (.session "MUSIC_U=u" true)], 1, [.proceed 1, .proceed 1], _, _, rfl, rfl, rfl⟩
  obtain ⟨t, hrun, ht⟩ : ∃ t, s.Run moves t ∧ t.Quiet := ⟨_, rfl, rfl⟩
  exact ⟨t, hrun, ht, hwrites, hends,
    (unsaved_iff_endsOvertaken hquiet hrun ht (by simp [moves]) hwrites).mpr hends⟩

end ConfigSystem

end Jukebox
