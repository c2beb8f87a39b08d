import Jukebox.Playlist.Store
import Jukebox.Proofs.Files

/-!
# What a failed write leaves of a playlist

Before a playlist is written its file is moved away, and a former version that stands there is
removed first.  When writing fails the file comes back, if the disk lets it, but not the former
version; and where there was no file to move away, whatever the failed write has left stays
(`PlaylistStore.writeWithBackup_undone_iff`).
-/

namespace Jukebox

namespace PlaylistStore

variable {files now : Files} {path backup here there : List String}
  {list old list' old' left : Option String} {text : String} {e : FileError}
  {write : Files → Files × Except FileError Unit} {restoring : Verdict}

/-- The places of a playlist's file and of its former version. -/
structure Slots (files : Files) (path backup here there : List String) : Prop where
  path : files.place path = .ok here
  backup : files.place backup = .ok there
  distinct : here ≠ there

/-- What stands at the two places now, while all else is as it was. -/
structure Holds (files now : Files) (here there : List String) (list old : Option String) :
    Prop where
  list : now.node? here = list.map .file
  old : now.node? there = old.map .file
  others : ∀ p, files.InDirectories p → p ≠ here → p ≠ there → now.node? p = files.node? p

/-- Writing to a place where nothing stands fails, and may leave a part of the text. -/
def FailsAt (write : Files → Files × Except FileError Unit) (here : List String)
    (left : Option String) (e : FileError) : Prop :=
  ∀ files : Files, files.node? here = none → ∃ after, write files = (after, .error e) ∧
    after.node? here = left.map .file ∧ ∀ p, p ≠ here → after.node? p = files.node? p

theorem Holds.symm (h : Holds files now here there list old) :
    Holds files now there here old list where
  list := h.old
  old := h.list
  others := fun p hp hthere hhere => h.others p hp hhere hthere

theorem Slots.symm (h : Slots files path backup here there) :
    Slots files backup path there here := ⟨h.backup, h.path, h.distinct.symm⟩

/-! ## What one operation does to the two places -/

theorem Holds.sameTree (h : Holds files files here there list old)
    (h' : Holds files now here there list' old') : files.SameTree now := by
  apply Files.sameTree_of_eq_elsewhere h'.others
  · rw [h.list, h'.list]
    exact ⟨Files.isPlain_map_file list, Files.isPlain_map_file list'⟩
  · rw [h.old, h'.old]
    exact ⟨Files.isPlain_map_file old, Files.isPlain_map_file old'⟩

/-- The places stay where they are. -/
theorem Slots.of_holds (h : Slots files path backup here there)
    (before : Holds files files here there list old)
    (after : Holds files now here there list' old') : Slots now path backup here there where
  path := Files.place_of_sameTree (before.sameTree after) h.path
  backup := Files.place_of_sameTree (before.sameTree after) h.backup
  distinct := h.distinct

theorem Holds.isThere (h : Holds files now here there list old)
    (slots : Slots now path backup here there) : now.isThere path = .ok list.isSome := by
  rw [Files.isThere_of_place slots.path (by rw [h.list]; exact Files.isPlain_map_file list),
    h.list, Option.isSome_map]

theorem Holds.remove (h : Holds files now here there list (some text))
    (slots : Slots now path backup here there) :
    ∃ after, now.remove backup = .ok after ∧ Holds files after here there list none := by
  have hplain : Files.IsPlain (now.node? there) := .inr ⟨text, h.old⟩
  refine ⟨now.drop there, Files.remove_of_place slots.backup h.old, ?_⟩
  constructor
  · rw [Files.node?_drop hplain.ne_nil, if_neg slots.distinct, h.list]
  · rw [Files.node?_drop hplain.ne_nil, if_pos rfl]
    rfl
  · intro p hp hhere hthere
    rw [Files.node?_drop hplain.ne_nil, if_neg hthere, h.others p hp hhere hthere]

theorem Holds.rename (before : Holds files files here there list' old')
    (h : Holds files now here there (some text) old)
    (slots : Slots now path backup here there) :
    ∃ after, now.rename path backup = .ok after ∧
      Holds files after here there none (some text) := by
  have hfile : now.node? here = some (.file text) := h.list
  have hsource : Files.IsPlain (now.node? here) := .inr ⟨text, hfile⟩
  have htarget : Files.IsPlain (now.node? there) := by
    rw [h.old]
    exact Files.isPlain_map_file old
  have hmoved : ∀ p, now.InDirectories p → (now.moved here there).node? p =
      if p = there then now.node? here else if p = here then none else now.node? p := by
    intro p hp
    exact Files.node?_moved hsource htarget slots.distinct
      (Files.place_inDirectories slots.path) hp
  refine ⟨now.moved here there,
    Files.rename_of_place slots.path slots.backup hfile htarget slots.distinct, ?_⟩
  constructor
  · rw [hmoved here (Files.place_inDirectories slots.path), if_neg slots.distinct, if_pos rfl]
    rfl
  · rw [hmoved there (Files.place_inDirectories slots.backup), if_pos rfl]
    exact hfile
  · intro p hp hhere hthere
    rw [hmoved p (hp.of_sameTree (before.sameTree h)), if_neg hthere, if_neg hhere]
    exact h.others p hp hhere hthere

/-- A failed write shows at its place only. -/
theorem Holds.failed (h : Holds files now here there none old) (hne : here ≠ there)
    (hwrite : FailsAt write here left e) :
    ∃ after, write now = (after, .error e) ∧ Holds files after here there left old := by
  obtain ⟨after, heq, hhere, hothers⟩ := hwrite now h.list
  refine ⟨after, heq, hhere, ?_, ?_⟩
  · rw [hothers there hne.symm]
    exact h.old
  · intro p hp hph hpt
    rw [hothers p hph]
    exact h.others p hp hph hpt

/-! ## The whole attempt -/

/-- Where there was a list, it has become the former version by the time the write fails, and the
attempt ends with moving it back. -/
theorem writeWithBackup_of_list (slots : Slots files path backup here there)
    (before : Holds files files here there (some text) old)
    (hwrite : FailsAt write here left e) (restoring : Verdict) :
    ∃ written, Slots written path backup here there ∧
      Holds files written here there left (some text) ∧
      writeWithBackup files path backup write restoring =
        ((written.tryRename backup path restoring).toOption.getD written, .error e) := by
  have hthere : files.isThere path = .ok true := before.isThere slots
  have hold : files.isThere backup = .ok old.isSome := before.symm.isThere slots.symm
  obtain ⟨cleared, hcleared, hclear⟩ :
      ∃ cleared, (if old.isSome then files.remove backup else .ok files) = .ok cleared ∧
        Holds files cleared here there (some text) none := by
    cases old with
    | none => exact ⟨files, rfl, before⟩
    | some former => exact before.remove slots
  obtain ⟨moved, hmoved, hmove⟩ := before.rename hclear (slots.of_holds before hclear)
  obtain ⟨written, hwritten, hwrite⟩ := hmove.failed slots.distinct hwrite
  refine ⟨written, slots.of_holds before hwrite, hwrite, ?_⟩
  simp only [writeWithBackup, hthere, hold, hcleared, hmoved, hwritten]
  cases written.tryRename backup path restoring <;> rfl

/-- If the list can be moved back, it is as before, and there is no former version any more. -/
theorem writeWithBackup_of_restored (slots : Slots files path backup here there)
    (before : Holds files files here there (some text) old)
    (hwrite : FailsAt write here left e) :
    ∃ after, writeWithBackup files path backup write = (after, .error e) ∧
      Holds files after here there (some text) none := by
  obtain ⟨written, hslots, hwritten, heq⟩ := writeWithBackup_of_list slots before hwrite .allows
  obtain ⟨restored, hrestored, hrestore⟩ := before.symm.rename hwritten.symm hslots.symm
  refine ⟨restored, ?_, hrestore.symm⟩
  rw [heq, Files.tryRename, hrestored]
  rfl

/-- If it cannot, the failed write shows at its place, and the list is the former version. -/
theorem writeWithBackup_of_not_restored (slots : Slots files path backup here there)
    (before : Holds files files here there (some text) old)
    (hwrite : FailsAt write here left e) (hrestoring : restoring ≠ .allows) :
    ∃ after, writeWithBackup files path backup write restoring = (after, .error e) ∧
      Holds files after here there left (some text) := by
  obtain ⟨written, -, hwritten, heq⟩ := writeWithBackup_of_list slots before hwrite restoring
  refine ⟨written, ?_, hwritten⟩
  cases restoring with
  | allows => exact absurd rfl hrestoring
  | refuses kept => exact heq

/-- Where there was no list, whatever the failed write has left stays. -/
theorem writeWithBackup_of_no_list (slots : Slots files path backup here there)
    (before : Holds files files here there none old) (hwrite : FailsAt write here left e)
    (restoring : Verdict) :
    ∃ after, writeWithBackup files path backup write restoring = (after, .error e) ∧
      Holds files after here there left old := by
  have hthere : files.isThere path = .ok false := before.isThere slots
  obtain ⟨written, hwritten, hwrite⟩ := before.failed slots.distinct hwrite
  refine ⟨written, ?_, hwrite⟩
  simp only [writeWithBackup, hthere, hwritten]

/-- When writing a playlist fails, the error comes back, and only the places of the list and of its
former version may have changed.  If the list could be moved back, or there was none, then a list
that was there is as before and its former version is gone; and where there was none, the former
version is as before and the place of the list has what the failed write has left.  So both are as
before exactly if there was a list without a former version, or there was no list and the failed
write has left nothing.  A list that could not be moved back is the former version now. -/
theorem writeWithBackup_undone_iff (slots : Slots files path backup here there)
    (hlist : files.node? here = list.map .file) (hold : files.node? there = old.map .file)
    (hwrite : FailsAt write here left e) (restoring : Verdict) :
    ∃ after, writeWithBackup files path backup write restoring = (after, .error e) ∧
      (∀ p, files.InDirectories p → p ≠ here → p ≠ there → after.node? p = files.node? p) ∧
      (list = none ∨ restoring = .allows →
        after.node? here = (list.or left).map .file ∧
        after.node? there = (if list.isSome then none else old).map .file ∧
        (after.node? here = files.node? here ∧ after.node? there = files.node? there ↔
          list.isSome ∧ old = none ∨ list = none ∧ left = none)) ∧
      (list.isSome → restoring ≠ .allows →
        after.node? here = left.map .file ∧ after.node? there = list.map .file) := by
  have before : Holds files files here there list old := ⟨hlist, hold, fun _ _ _ _ => rfl⟩
  cases list with
  | none =>
    obtain ⟨after, heq, h⟩ := writeWithBackup_of_no_list slots before hwrite restoring
    refine ⟨after, heq, h.others, fun _ => ⟨h.list, h.old, ?_⟩, nofun⟩
    rw [h.list, h.old, hlist, hold]
    cases left <;> simp
  | some text =>
    by_cases hrestoring : restoring = .allows
    · subst hrestoring
      obtain ⟨after, heq, h⟩ := writeWithBackup_of_restored slots before hwrite
      refine ⟨after, heq, h.others, fun _ => ⟨h.list, h.old, ?_⟩, fun _ hne => absurd rfl hne⟩
      rw [h.list, h.old, hlist, hold]
      cases old <;> simp
    · obtain ⟨after, heq, h⟩ := writeWithBackup_of_not_restored slots before hwrite hrestoring
      exact ⟨after, heq, h.others, by simp [hrestoring], fun _ _ => ⟨h.list, h.old⟩⟩

/-- In a folder that is a directory, with a directory of former versions inside, the two places
are the written ones. -/
theorem slots_of_directories {folder : List String} {name : String}
    (hnames : ∀ part ∈ folder ++ [backupFolder] ++ [name],
      Files.isName part = true ∧ part ≠ "..")
    (h : ∀ q ∈ (folder ++ [backupFolder]).inits, files.node? q = some .directory) :
    Slots files (folder ++ [name]) (folder ++ [backupFolder] ++ [name]) (folder ++ [name])
      (folder ++ [backupFolder] ++ [name]) where
  path := by
    apply Files.place_of_directories
    · intro part hpart
      apply hnames
      simp only [List.mem_append] at hpart ⊢
      tauto
    · intro q hq
      apply h
      rw [List.mem_inits] at hq ⊢
      exact hq.trans (List.prefix_append _ _)
  backup := Files.place_of_directories hnames h
  distinct := by simp

/-- The disk is full after a part of the new list.  The former version is lost; and the list comes
back, unless it cannot be moved either. -/
theorem writeWithBackup_undone_iff_of_full_disk :
    let here := ["lists", "x.json"]
    let there := ["lists", "deleted", "x.json"]
    let files : Files := ⟨[(["lists"], .directory), (["lists", "deleted"], .directory),
      (here, .file "list"), (there, .file "former")]⟩
    let write : Files → Files × Except FileError Unit :=
      fun files => (files.put here (.file "li"), .error .refused)
    Slots files here there here there ∧ FailsAt write here (some "li") .refused ∧
      (∃ after, writeWithBackup files here there write .allows = (after, .error .refused) ∧
        after.node? here = some (.file "list") ∧ after.node? there = none) ∧
      ∃ after, writeWithBackup files here there write (.refuses none) = (after, .error .refused) ∧
        after.node? here = some (.file "li") ∧ after.node? there = some (.file "list") := by
  intro here there files write
  have slots : Slots files here there here there :=
    @slots_of_directories files ["lists"] "x.json" (by decide +kernel) (by decide +kernel)
  have hwrite : FailsAt write here (some "li") .refused := by
    intro files _
    refine ⟨_, rfl, ?_, ?_⟩
    · rw [Files.node?_put (by decide), if_pos rfl]
      rfl
    · intro p hp
      rw [Files.node?_put (by decide), if_neg hp]
  have hlist : files.node? here = (some "list").map .file := by decide +kernel
  have hold : files.node? there = (some "former").map .file := by decide +kernel
  obtain ⟨after, heq, -, hrestored, -⟩ :=
    writeWithBackup_undone_iff slots hlist hold hwrite .allows
  obtain ⟨hhere, hthere, -⟩ := hrestored (.inr rfl)
  obtain ⟨after', heq', -, -, hkept⟩ :=
    writeWithBackup_undone_iff slots hlist hold hwrite (.refuses none)
  obtain ⟨hhere', hthere'⟩ := hkept rfl (by decide)
  exact ⟨slots, hwrite, ⟨after, heq, hhere, hthere⟩, after', heq', hhere', hthere'⟩

/-- The list comes back after a failed write that has left nothing, and still the two places are
not as before: the former version is lost. -/
theorem former_lost_by_failed_write :
    let here := ["lists", "x.json"]
    let there := ["lists", "deleted", "x.json"]
    let files : Files := ⟨[(["lists"], .directory), (["lists", "deleted"], .directory),
      (here, .file "list"), (there, .file "former")]⟩
    let result := writeWithBackup files here there fun files => (files, .error .refused)
    result.2 = .error .refused ∧ result.1.node? here = files.node? here ∧
      files.node? there = some (.file "former") ∧ result.1.node? there = none := by
  intro here there files result
  have slots : Slots files here there here there :=
    @slots_of_directories files ["lists"] "x.json" (by decide +kernel) (by decide +kernel)
  have before : Holds files files here there (some "list") (some "former") :=
    ⟨by decide +kernel, by decide +kernel, fun _ _ _ _ => rfl⟩
  have hwrite : FailsAt (fun files => (files, .error .refused)) here none .refused :=
    fun files hnone => ⟨files, rfl, hnone, fun _ _ => rfl⟩
  obtain ⟨after, heq, hafter⟩ := writeWithBackup_of_restored slots before hwrite
  have hresult : result = (after, .error .refused) := heq
  rw [hresult]
  exact ⟨rfl, hafter.list.trans before.list.symm, before.old, hafter.old⟩

end PlaylistStore

end Jukebox
