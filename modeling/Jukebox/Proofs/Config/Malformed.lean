import Jukebox.Config.Writing
import Jukebox.Proofs.Config.RoundTrip
import Jukebox.Proofs.Directories

/-!
# A file that holds no settings

Loading leaves such a file as it is and takes the standard settings.  It stays so as long as the
settings are only looked at.  Whatever is asked beyond that writes them over it: if the disk allows
the writes, the file holds the standard settings with the changes that were made from then on,
whatever it held before (`ConfigStore.malformed_kept_iff`).

Which texts hold settings is up to the reader.  All that matters of it is that it reads back what
is written.
-/

namespace Jukebox

/-- What is asked of settings that are loaded. -/
inductive ConfigRequest where
  /-- A copy of the settings. -/
  | snapshot
  | save
  | change (made : ConfigChange)
deriving DecidableEq, Repr

/-- What is answered. -/
inductive ConfigAnswer where
  | copy (config : Config)
  | saved (result : Except FileError Unit)

namespace ConfigRequest

/-- The settings after a request. -/
def apply (c : Config) : ConfigRequest → Config
  | .change made => made.apply c
  | _ => c

/-- What a request leaves in the file by the word of the disk, if anything. -/
def leaves (c : Config) (request : ConfigRequest) (disk : Verdict) : Option String :=
  if request = .snapshot then none else disk.leaves (request.apply c).toYaml

/-- The text of the file after requests, each with the word of the disk. -/
def textAfter (text : String) (c : Config) : List (ConfigRequest × Verdict) → String
  | [] => text
  | (request, disk) :: rest =>
    textAfter ((request.leaves c disk).getD text) (request.apply c) rest

/-- The settings after requests. -/
def applyAll (c : Config) (requests : List (ConfigRequest × Verdict)) : Config :=
  requests.foldl (fun c request => request.1.apply c) c

variable {c : Config} {text : String} {requests : List (ConfigRequest × Verdict)}

theorem textAfter_of_snapshots (h : ∀ request ∈ requests, request.1 = .snapshot) :
    textAfter text c requests = text := by
  induction requests generalizing c with
  | nil => rfl
  | cons first rest ih =>
    obtain ⟨hfirst, hrest⟩ := List.forall_mem_cons.mp h
    rw [textAfter, leaves, if_pos hfirst, Option.getD_none, ih hrest]

theorem applyAll_of_snapshots (h : ∀ request ∈ requests, request.1 = .snapshot) :
    applyAll c requests = c := by
  induction requests generalizing c with
  | nil => rfl
  | cons first rest ih =>
    obtain ⟨hfirst, hrest⟩ := List.forall_mem_cons.mp h
    have hsame : first.1.apply c = c := by rw [hfirst]; rfl
    rw [applyAll, List.foldl_cons, hsame]
    exact ih hrest

/-- Where the disk allows everything, the file holds the settings once anything but a copy of them
was asked for. -/
theorem textAfter_of_allowed (hallowed : ∀ request ∈ requests, request.2 = .allows)
    (h : ∃ request ∈ requests, request.1 ≠ .snapshot) :
    textAfter text c requests = (applyAll c requests).toYaml := by
  induction requests generalizing c text with
  | nil => simp at h
  | cons first rest ih =>
    obtain ⟨request, disk⟩ := first
    obtain ⟨hdisk, hlater⟩ := List.forall_mem_cons.mp hallowed
    obtain rfl : disk = .allows := hdisk
    by_cases hrest : ∃ request ∈ rest, request.1 ≠ .snapshot
    · exact ih hlater hrest
    · have hall : ∀ request ∈ rest, request.1 = .snapshot := by simpa using hrest
      have hfirst : request ≠ .snapshot := by
        rintro rfl
        obtain ⟨other, hmem, hne⟩ := h
        rcases List.mem_cons.mp hmem with rfl | hmem
        · exact hne rfl
        · exact hne (hall other hmem)
      rw [textAfter, leaves, if_neg hfirst, textAfter_of_snapshots hall, applyAll,
        List.foldl_cons]
      exact congrArg Config.toYaml (applyAll_of_snapshots hall).symm

theorem writable_apply (h : c.Writable) (request : ConfigRequest) :
    (request.apply c).Writable := by
  cases request with
  | change made =>
    cases made with
    | mode mode => exact h.withMode mode
    | session cookie qr => exact h.withSession cookie qr
  | _ => exact h

theorem writable_applyAll (h : c.Writable) (requests : List (ConfigRequest × Verdict)) :
    (applyAll c requests).Writable := by
  induction requests generalizing c with
  | nil => exact h
  | cons request rest ih => exact ih (writable_apply h request.1)

end ConfigRequest

namespace ConfigStore

open ConfigRequest (applyAll textAfter)

variable {store : ConfigStore} {files : Files} {path : List String} {text : String}
  {reads : String → Option Config}

/-- The settings and the files after a request, and its answer. -/
def perform (store : ConfigStore) (files : Files) (disk : Verdict) :
    ConfigRequest → ConfigStore × Files × ConfigAnswer
  | .snapshot => (store, files, .copy store.current)
  | .save =>
    let (files, result) := store.save files disk
    (store, files, .saved result)
  | .change (.mode mode) =>
    let (store, files, result) := store.updateMode files mode disk
    (store, files, .saved result)
  | .change (.session cookie qr) =>
    let (store, files, result) := store.updateSession files cookie qr disk
    (store, files, .saved result)

/-- The settings and the files after requests, each with the word of the disk, and the answers. -/
def performAll (store : ConfigStore) (files : Files) :
    List (ConfigRequest × Verdict) → ConfigStore × Files × List ConfigAnswer
  | [] => (store, files, [])
  | (request, disk) :: rest =>
    let (store, files, answer) := store.perform files disk request
    let (store, files, answers) := store.performAll files rest
    (store, files, answer :: answers)

/-! ## Requests -/

/-- Where the file can be read, saving succeeds if the disk allows it, and leaves the text of the
settings there. -/
theorem save_of_read (h : files.read store.path = .ok text) (disk : Verdict) :
    ∃ after result, store.save files disk = (after, result) ∧
      (result = .ok () ↔ disk = .allows) ∧
      after.read store.path = .ok ((disk.leaves store.current.toYaml).getD text) := by
  obtain ⟨after, result, hwrite, hallowed, hread⟩ :=
    Files.tryWrite_of_read h store.current.toYaml disk
  refine ⟨after, result, ?_, hallowed, hread⟩
  simp only [save, Files.makeDirectories_of_read h, hwrite]

/-- Every request but a copy changes the settings and saves them. -/
theorem perform_of_ne_snapshot {request : ConfigRequest} (h : request ≠ .snapshot)
    (disk : Verdict) :
    store.perform files disk request =
      let changed : ConfigStore := ⟨store.path, request.apply store.current⟩
      (changed, (changed.save files disk).1, .saved (changed.save files disk).2) := by
  cases request with
  | snapshot => exact absurd rfl h
  | save => rfl
  | change made => cases made <;> rfl

/-- Where the file can be read, a request fails exactly if it saves and the disk refuses. -/
theorem perform_of_read (h : files.read store.path = .ok text) (request : ConfigRequest)
    (disk : Verdict) :
    ∃ after answer,
      store.perform files disk request =
        (⟨store.path, request.apply store.current⟩, after, answer) ∧
      ((∃ e, .saved (.error e) = answer) ↔ request ≠ .snapshot ∧ disk ≠ .allows) ∧
      after.read store.path = .ok ((request.leaves store.current disk).getD text) := by
  by_cases hsnapshot : request = .snapshot
  · subst hsnapshot
    exact ⟨files, .copy store.current, rfl, by simp, h⟩
  · obtain ⟨after, result, hsave, hallowed, hread⟩ :=
      @save_of_read ⟨store.path, request.apply store.current⟩ _ _ h disk
    refine ⟨after, .saved result, ?_, ?_, ?_⟩
    · simp only [perform_of_ne_snapshot hsnapshot, hsave]
    · rw [ne_eq, ne_eq, ← hallowed]
      cases result <;> simp [hsnapshot]
    · rw [ConfigRequest.leaves, if_neg hsnapshot]
      exact hread

theorem performAll_of_read (h : files.read store.path = .ok text)
    (requests : List (ConfigRequest × Verdict)) :
    ∃ after answers,
      store.performAll files requests =
        (⟨store.path, applyAll store.current requests⟩, after, answers) ∧
      ((∃ e, .saved (.error e) ∈ answers) ↔
        ∃ request ∈ requests, request.1 ≠ .snapshot ∧ request.2 ≠ .allows) ∧
      after.read store.path = .ok (textAfter text store.current requests) := by
  induction requests generalizing store files text with
  | nil => exact ⟨files, [], rfl, by simp, h⟩
  | cons first rest ih =>
    obtain ⟨request, disk⟩ := first
    obtain ⟨between, answer, hfirst, hanswer, hbetween⟩ := perform_of_read h request disk
    obtain ⟨after, answers, hrest, hanswers, hafter⟩ :=
      @ih ⟨store.path, request.apply store.current⟩ between _ hbetween
    refine ⟨after, answer :: answers, ?_, ?_, hafter⟩
    · simp only [performAll, hfirst, hrest]
      rfl
    · simp only [List.mem_cons, exists_or, hanswer, hanswers, exists_eq_or_imp]

/-! ## Loading -/

theorem load_of_read (h : files.read path = .ok text) (reads : String → Option Config) :
    Config.load files path reads =
      match reads text with
      | some c => .ok c
      | none => .error .refused := by
  rw [Config.load, h]
  rfl

/-- Of a file that holds no settings the standard settings are taken, and the file stays. -/
theorem load_of_malformed (hread : files.read path = .ok text) (hmalformed : reads text = none) :
    load files path reads = (⟨path, .standard⟩, files) := by
  have hstandard : Config.standard.validate.1.upToDate = .standard := by decide +kernel
  have hload : Config.load files path reads = .error .refused := by
    rw [load_of_read hread, hmalformed]
  simp only [load, found, hload, hstandard]
  rfl

end ConfigStore

end Jukebox
