import Jukebox.Proofs.Lowercase
import Jukebox.Proofs.Path
import Jukebox.Proofs.Playlist.RoundTrip

/-!
# Searching saved playlists

What is listed are the names of the lists in the folder, sorted.  A list whose name begins as asked,
in any case of ASCII letters, is among them but for one case: what was asked ends in a capital
sigma, where it ends a word, and the name goes on with a letter there (`PlaylistStore.list_exact`).
-/

namespace Jukebox

namespace PlaylistStore

variable {files : Files} {store : PlaylistStore} {told : FileError → String}
  {file name lead : String} {names : List String}

/-- Only the file of a list stands for its name. -/
theorem nameOfFile?_eq_some_iff :
    nameOfFile? file = some name ↔ name ≠ "" ∧ file = fileName name := by
  constructor
  · intro h
    unfold nameOfFile? at h
    split_ifs at h with hextension
    obtain rfl := Option.some.inj h
    unfold Path.extension? at hextension
    split at hextension
    · next c before after hcut =>
      have hafter : String.ofList after = "json" := Option.some.inj hextension
      obtain ⟨hfile, -⟩ := Path.eq_append_of_cutAtLastDot hcut
      have hstem : Path.stem file = String.ofList (c :: before) := by
        simp only [Path.stem, hcut]
      rw [hstem]
      refine ⟨by simp, ?_⟩
      rw [← String.toList_inj, hfile, fileName, extension, ← hafter]
      simp
    · cases hextension
  · rintro ⟨hname, rfl⟩
    exact nameOfFile?_fileName hname

/-- In the folder is something with the file name of a list of this name. -/
def HasList (store : PlaylistStore) (files : Files) (name : String) : Prop :=
  name ≠ "" ∧ ∃ names, files.names (Files.path store.folder) = .ok names ∧ fileName name ∈ names

theorem hasList_iff (h : files.names (Files.path store.folder) = .ok names) :
    store.HasList files name ↔ name ∈ names.filterMap nameOfFile? := by
  simp only [HasList, h, Except.ok.injEq, exists_eq_left', List.mem_filterMap,
    nameOfFile?_eq_some_iff]
  constructor
  · rintro ⟨hname, hmem⟩
    exact ⟨_, hmem, hname, rfl⟩
  · rintro ⟨file, hmem, hname, rfl⟩
    exact ⟨hname, hmem⟩

theorem beginsWith_iff :
    beginsWith lead name = true ↔
      Text.lowercased lead.toList <+: Text.lowercased name.toList := by
  rw [beginsWith, List.isPrefixOf_iff_prefix]

/-- The lists of a folder that is there, or that there is no need for, are listed: in order, and
those whose lowercase begins with the lowercase of what was asked. -/
theorem exists_list_eq_ok (lead : String)
    (h : ∀ e, files.names (Files.path store.folder) = .error e → e = .missing) :
    ∃ listed, store.list told files (some lead) = .ok listed ∧ listed.Pairwise (· ≤ ·) ∧
      ∀ name, name ∈ listed ↔ store.HasList files name ∧
        Text.lowercased lead.toList <+: Text.lowercased name.toList := by
  cases hnames : files.names (Files.path store.folder) with
  | error e =>
    obtain rfl := h e hnames
    refine ⟨[], by simp only [list, hnames], List.Pairwise.nil, ?_⟩
    simp [HasList, hnames]
  | ok names =>
    refine ⟨_, by simp only [list, hnames, Option.getD_some]; rfl, ?_, ?_⟩
    · exact pairwise_sorted _
    · intro name
      rw [List.mem_mergeSort, List.mem_filter, hasList_iff hnames, beginsWith_iff]

end PlaylistStore

end Jukebox
