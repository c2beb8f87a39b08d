import Mathlib.Data.List.Infix
import Jukebox.Files.Basic
import Jukebox.Proofs.Entries

/-!
# What file operations leave behind

A path is followed through directories and links; plain files only stand at its end.  So writing,
removing and renaming plain files does not change where a path leads to (`place_of_sameTree`), and
each of these operations is told by what stands at its one or two places afterwards.
-/

namespace Jukebox

namespace Files

variable {files other : Files} {p q source target done rest : List String} {name : String}
  {node : FileNode} {text : String}

/-! ## Places -/

/-- Nothing or a plain file. -/
def IsPlain (node : Option FileNode) : Prop := node = none ∨ ∃ text, node = some (.file text)

theorem isPlain_map_file (text : Option String) : IsPlain (text.map .file) := by
  cases text with
  | none => exact .inl rfl
  | some text => exact .inr ⟨text, rfl⟩

theorem IsPlain.ne_directory (h : IsPlain (files.node? p)) : files.node? p ≠ some .directory := by
  rintro hdirectory
  rw [hdirectory] at h
  rcases h with h | ⟨text, h⟩ <;> cases h

theorem IsPlain.ne_nil (h : IsPlain (files.node? p)) : p ≠ [] := by
  rintro rfl
  exact h.ne_directory rfl

/-- Whatever is on the way to a place is a directory. -/
def InDirectories (files : Files) (p : List String) : Prop :=
  ∀ q, q <+: p → q ≠ p → files.node? q = some .directory

/-- A plain file is not on the way to such a place. -/
theorem InDirectories.eq_of_prefix (h : files.InDirectories p) (hplain : IsPlain (files.node? q))
    (hinit : q <+: p) : q = p := by
  by_contra hne
  exact hplain.ne_directory (h q hinit hne)

theorem inDirectories_concat (h : ∀ q, q <+: done → files.node? q = some .directory)
    (name : String) : files.InDirectories (done ++ [name]) := by
  intro q hinit hne
  rw [List.prefix_concat_iff] at hinit
  exact h q (hinit.resolve_left hne)

/-! ## What stands at a place -/

theorem node?_of_ne_nil (h : p ≠ []) : files.node? p = files.nodes.lookup p := by
  have hempty : p.isEmpty = false := by simpa using h
  simp [node?, hempty]

theorem node?_drop (hp : p ≠ []) (q : List String) :
    (files.drop p).node? q = if q = p then none else files.node? q := by
  by_cases hq : q = []
  · subst hq
    rw [if_neg hp.symm]
    rfl
  · rw [node?_of_ne_nil hq, node?_of_ne_nil hq]
    exact Entries.lookup_filter_ne files.nodes p q

theorem node?_put (hp : p ≠ []) (q : List String) :
    (files.put p node).node? q = if q = p then some node else files.node? q := by
  by_cases hq : q = []
  · subst hq
    rw [if_neg hp.symm]
    rfl
  · rw [node?_of_ne_nil hq, node?_of_ne_nil hq]
    simp only [put, Entries.lookup_cons_eq, Entries.lookup_filter_ne]
    by_cases heq : q = p
    · simp [heq]
    · simp [heq]

/-- Where something stands after everything at and below one place was moved to another. -/
def movedPath (source target p : List String) : List String :=
  if source.isPrefixOf p then target ++ p.drop source.length else p

theorem movedPath_append (source target rest : List String) :
    movedPath source target (source ++ rest) = target ++ rest := by
  have hprefix : source.isPrefixOf (source ++ rest) = true := by simp
  rw [movedPath, if_pos hprefix, List.drop_left]

theorem movedPath_eq_self (h : ¬source <+: p) : movedPath source target p = p :=
  if_neg (by simpa using h)

theorem nodes_moved (files : Files) (source target : List String) :
    (files.moved source target).nodes =
      (files.nodes.filter fun entry => entry.1 != target).map fun entry =>
        (movedPath source target entry.1, entry.2) := by
  refine List.map_congr_left ?_
  intro entry _
  simp only [movedPath]
  split <;> rfl

theorem node?_moved_target (hne : source ≠ target) (hsource : source ≠ []) (htarget : target ≠ []) :
    (files.moved source target).node? target = files.node? source := by
  rw [node?_of_ne_nil htarget, node?_of_ne_nil hsource, nodes_moved,
    Entries.lookup_rekey source, Entries.lookup_filter_ne, if_neg hne]
  intro entry hentry
  have hkept : entry.1 ≠ target := by simpa using (List.mem_filter.mp hentry).2
  constructor
  · intro heq
    by_cases hinit : source <+: entry.1
    · obtain ⟨rest, hrest⟩ := hinit
      rw [← hrest, movedPath_append] at heq
      have hnil : rest = [] := by simpa using heq
      rw [← hrest, hnil, List.append_nil]
    · rw [movedPath_eq_self hinit] at heq
      exact absurd heq hkept
  · intro heq
    have hmoved := movedPath_append source target []
    rw [List.append_nil, List.append_nil] at hmoved
    rw [heq, hmoved]

theorem node?_moved_source (hsource : source ≠ []) (h : ¬target <+: source) :
    (files.moved source target).node? source = none := by
  rw [node?_of_ne_nil hsource, nodes_moved]
  apply Entries.lookup_rekey_eq_none
  intro entry _ heq
  by_cases hinit : source <+: entry.1
  · obtain ⟨rest, hrest⟩ := hinit
    rw [← hrest, movedPath_append] at heq
    exact h ⟨rest, heq⟩
  · rw [movedPath_eq_self hinit] at heq
    exact hinit (heq ▸ List.prefix_rfl)

/-- What stands neither at or below the one place nor at or below the other stays. -/
theorem node?_moved_elsewhere (hsource : ¬source <+: p) (htarget : ¬target <+: p) :
    (files.moved source target).node? p = files.node? p := by
  by_cases hnil : p = []
  · subst hnil
    rfl
  have hne : p ≠ target := fun heq => htarget (heq ▸ List.prefix_rfl)
  rw [node?_of_ne_nil hnil, node?_of_ne_nil hnil, nodes_moved, Entries.lookup_rekey p,
    Entries.lookup_filter_ne, if_neg hne]
  intro entry _
  constructor
  · intro heq
    by_cases hinit : source <+: entry.1
    · obtain ⟨rest, hrest⟩ := hinit
      rw [← hrest, movedPath_append] at heq
      exact absurd ⟨rest, heq⟩ htarget
    · rwa [movedPath_eq_self hinit] at heq
  · rintro rfl
    exact movedPath_eq_self hsource

/-- A plain file and nothing else comes to another place, where nothing or another file stood. -/
theorem node?_moved (hsource : IsPlain (files.node? source))
    (htarget : IsPlain (files.node? target))
    (hne : source ≠ target) (hinSource : files.InDirectories source)
    (hp : files.InDirectories p) :
    (files.moved source target).node? p =
      if p = target then files.node? source
      else if p = source then none else files.node? p := by
  by_cases hpt : p = target
  · subst hpt
    rw [if_pos rfl]
    exact node?_moved_target hne hsource.ne_nil htarget.ne_nil
  by_cases hps : p = source
  · subst hps
    rw [if_neg hpt, if_pos rfl]
    apply node?_moved_source hsource.ne_nil
    intro hinit
    exact hpt (hinSource.eq_of_prefix htarget hinit).symm
  · rw [if_neg hpt, if_neg hps]
    apply node?_moved_elsewhere
    · intro hinit
      exact hps (hp.eq_of_prefix hsource hinit).symm
    · intro hinit
      exact hpt (hp.eq_of_prefix htarget hinit).symm

/-! ## Where a path leads to -/

theorem follow_up (files : Files) (links : Nat) (done rest : List String) :
    files.follow links done (".." :: rest) = files.follow links done.dropLast rest := by
  have hname : isName ".." = true := by decide
  rw [follow]
  simp [hname]

theorem follow_plain (hname : isName name = true) (hup : name ≠ "..")
    (h : IsPlain (files.node? (done ++ [name]))) (links : Nat) :
    files.follow links done [name] = .ok (done ++ [name]) := by
  rw [follow]
  rcases h with h | ⟨text, h⟩ <;> simp [hname, hup, h]

theorem follow_directory (hname : isName name = true) (hup : name ≠ "..")
    (h : files.node? (done ++ [name]) = some .directory) (links : Nat) (rest : List String) :
    files.follow links done (name :: rest) = files.follow links (done ++ [name]) rest := by
  rw [follow]
  simp [hname, hup, h]

theorem follow_link (hname : isName name = true) (hup : name ≠ "..")
    (h : files.node? (done ++ [name]) = some (.link target)) (links : Nat) (rest : List String) :
    files.follow (links + 1) done (name :: rest) = files.follow links [] (target ++ rest) := by
  rw [follow]
  simp [hname, hup, h]

theorem directories_dropLast (h : ∀ q, q <+: done → files.node? q = some .directory) :
    ∀ q, q <+: done.dropLast → files.node? q = some .directory := by
  intro q hinit
  exact h q (hinit.trans (List.dropLast_prefix done))

theorem directories_concat (h : ∀ q, q <+: done → files.node? q = some .directory)
    (hhere : files.node? (done ++ [name]) = some .directory) :
    ∀ q, q <+: done ++ [name] → files.node? q = some .directory := by
  intro q hinit
  rcases List.prefix_concat_iff.mp hinit with rfl | hinit
  · exact hhere
  · exact h q hinit

theorem directories_nil (files : Files) :
    ∀ q, q <+: ([] : List String) → files.node? q = some .directory := by
  intro q hinit
  rw [List.prefix_nil.mp hinit]
  rfl

theorem follow_inDirectories {links : Nat} {found : List String}
    (hdone : ∀ q, q <+: done → files.node? q = some .directory)
    (h : files.follow links done rest = .ok found) : files.InDirectories found := by
  fun_induction files.follow links done rest with
  | case1 links done =>
    obtain rfl : done = found := by simpa using h
    intro q hinit _
    exact hdone q hinit
  | case2 => cases h
  | case3 links done rest hname ih => exact ih (directories_dropLast hdone) h
  | case4 links done name rest hname hup here hnode hlast =>
    obtain rfl : here = found := by simpa using h
    exact inDirectories_concat hdone name
  | case5 => cases h
  | case6 links done name rest hname hup here hnode ih =>
    exact ih (directories_concat hdone hnode) h
  | case7 links done name rest hname hup here text hnode hlast =>
    obtain rfl : here = found := by simpa using h
    exact inDirectories_concat hdone name
  | case8 => cases h
  | case9 => cases h
  | case10 done name rest hname hup here target hnode links ih => exact ih (directories_nil files) h

/-- Directories and links stand at the same places, as far as a path can lead to them. -/
def SameTree (files other : Files) : Prop :=
  ∀ p, files.InDirectories p →
    other.node? p = files.node? p ∨ IsPlain (files.node? p) ∧ IsPlain (other.node? p)

/-- Where a path leads to in one of two equal trees, it leads to in the other. -/
theorem follow_of_sameTree {links : Nat} {found : List String} (hsame : files.SameTree other)
    (hdone : ∀ q, q <+: done → files.node? q = some .directory)
    (h : files.follow links done rest = .ok found) :
    other.follow links done rest = .ok found := by
  -- What is not plain is the same in both trees, and what is plain ends the path in both.
  have hhere : ∀ {done : List String} {name : String},
      (∀ q, q <+: done → files.node? q = some .directory) →
      ¬IsPlain (files.node? (done ++ [name])) →
      other.node? (done ++ [name]) = files.node? (done ++ [name]) := by
    intro done name hdone hnot
    exact (hsame _ (inDirectories_concat hdone name)).resolve_right fun h => hnot h.1
  have hplain : ∀ {done : List String} {name : String},
      (∀ q, q <+: done → files.node? q = some .directory) →
      IsPlain (files.node? (done ++ [name])) → IsPlain (other.node? (done ++ [name])) := by
    intro done name hdone hplain
    rcases hsame _ (inDirectories_concat hdone name) with heq | ⟨-, hplain⟩
    · rwa [heq]
    · exact hplain
  fun_induction files.follow links done rest with
  | case1 links done =>
    rw [follow]
    exact h
  | case2 => cases h
  | case3 links done rest hname ih =>
    rw [follow_up]
    exact ih (directories_dropLast hdone) h
  | case4 links done name rest hname hup here hnode hlast =>
    obtain rfl : rest = [] := by simpa using hlast
    rw [follow_plain (by simpa using hname) hup (hplain hdone (.inl hnode))]
    exact h
  | case5 => cases h
  | case6 links done name rest hname hup here hnode ih =>
    have hother := hhere hdone (by rw [hnode]; rintro (h | ⟨_, h⟩) <;> cases h)
    rw [follow_directory (by simpa using hname) hup (hother.trans hnode)]
    exact ih (directories_concat hdone hnode) h
  | case7 links done name rest hname hup here text hnode hlast =>
    obtain rfl : rest = [] := by simpa using hlast
    rw [follow_plain (by simpa using hname) hup (hplain hdone (.inr ⟨text, hnode⟩))]
    exact h
  | case8 => cases h
  | case9 => cases h
  | case10 done name rest hname hup here target hnode links ih =>
    have hother := hhere hdone (by rw [hnode]; rintro (h | ⟨_, h⟩) <;> cases h)
    rw [follow_link (by simpa using hname) hup (hother.trans hnode)]
    exact ih (directories_nil files) h

/-- A path to a directory may be followed by the name of a plain file. -/
theorem follow_concat {links : Nat} {found : List String} (hname : isName name = true)
    (hup : name ≠ "..") (h : files.follow links done rest = .ok found)
    (hfound : files.node? found = some .directory)
    (hplain : IsPlain (files.node? (found ++ [name]))) :
    files.follow links done (rest ++ [name]) = .ok (found ++ [name]) := by
  fun_induction files.follow links done rest with
  | case1 links done =>
    obtain rfl : done = found := by simpa using h
    exact follow_plain hname hup hplain links
  | case2 => cases h
  | case3 links done rest hname ih =>
    rw [List.cons_append, follow_up]
    exact ih h
  | case4 links done name rest hname hup here hnode hlast =>
    obtain rfl : here = found := by simpa using h
    rw [hnode] at hfound
    cases hfound
  | case5 => cases h
  | case6 links done other rest hother hotherUp here hnode ih =>
    rw [List.cons_append, follow_directory (by simpa using hother) hotherUp hnode]
    exact ih h
  | case7 links done name rest hname hup here text hnode hlast =>
    obtain rfl : here = found := by simpa using h
    rw [hnode] at hfound
    cases hfound
  | case8 => cases h
  | case9 => cases h
  | case10 done other rest hother hotherUp here target hnode links ih =>
    rw [List.cons_append, follow_link (by simpa using hother) hotherUp hnode,
      ← List.append_assoc]
    exact ih h

/-! ## Files in their places -/

theorem place_eq_ok {found : List String} (h : files.place p = .ok found) :
    ∃ directory name, p = p.dropLast ++ [name] ∧ files.resolve p.dropLast = .ok directory ∧
      isName name = true ∧ name ≠ ".." ∧ files.node? directory = some .directory ∧
      found = directory ++ [name] := by
  cases hlast : p.getLast? with
  | none => simp [place, hlast] at h
  | some name =>
    cases hdirectory : files.resolve p.dropLast with
    | error e => simp [place, hlast, hdirectory, bind, Except.bind] at h
    | ok directory =>
      have hp : p = p.dropLast ++ [name] :=
        (List.dropLast_append_getLast? name hlast).symm
      simp only [place, hlast, hdirectory, bind, Except.bind] at h
      by_cases hname : isName name = true ∧ name ≠ ".."
      · rw [if_neg (by simpa using hname)] at h
        split at h
        · next hnode =>
          cases h
          exact ⟨directory, name, hp, rfl, hname.1, hname.2, hnode, rfl⟩
        · cases h
        · cases h
      · rw [if_pos] at h
        · cases h
        · by_cases hup : name = ".."
          · simp [hup]
          · simpa [hup] using hname

theorem place_of_resolve {directory : List String}
    (hdirectory : files.resolve p = .ok directory)
    (hnode : files.node? directory = some .directory) (hname : isName name = true)
    (hup : name ≠ "..") : files.place (p ++ [name]) = .ok (directory ++ [name]) := by
  simp [place, hdirectory, bind, Except.bind, hname, hup, hnode]

theorem resolve_directories {directory : List String} (h : files.resolve p = .ok directory)
    (hnode : files.node? directory = some .directory) :
    ∀ q, q <+: directory → files.node? q = some .directory := by
  intro q hinit
  by_cases heq : q = directory
  · rwa [heq]
  · exact follow_inDirectories (directories_nil files) h q hinit heq

theorem place_inDirectories {found : List String} (h : files.place p = .ok found) :
    files.InDirectories found := by
  obtain ⟨directory, name, -, hdirectory, -, -, hnode, rfl⟩ := place_eq_ok h
  exact inDirectories_concat (resolve_directories hdirectory hnode) name

theorem SameTree.node?_eq_directory (h : files.SameTree other) (hp : files.InDirectories p)
    (hnode : files.node? p = some .directory) : other.node? p = some .directory := by
  rcases h p hp with heq | ⟨hplain, -⟩
  · exact heq.trans hnode
  · exact absurd hnode hplain.ne_directory

theorem InDirectories.of_sameTree (hp : files.InDirectories p) (h : files.SameTree other) :
    other.InDirectories p := by
  intro q hinit hne
  refine h.node?_eq_directory ?_ (hp q hinit hne)
  intro r hr hrne
  refine hp r (hr.trans hinit) ?_
  rintro rfl
  exact hrne (hr.eq_of_length_le hinit.length_le)

theorem place_of_sameTree {found : List String} (hsame : files.SameTree other)
    (h : files.place p = .ok found) : other.place p = .ok found := by
  obtain ⟨directory, name, hp, hdirectory, hname, hup, hnode, rfl⟩ := place_eq_ok h
  have hthere : files.InDirectories directory :=
    follow_inDirectories (directories_nil files) hdirectory
  have hother : other.resolve p.dropLast = .ok directory :=
    follow_of_sameTree hsame (directories_nil files) hdirectory
  rw [hp]
  exact place_of_resolve hother (hsame.node?_eq_directory hthere hnode) hname hup

theorem resolve_of_place {found : List String} (h : files.place p = .ok found)
    (hplain : IsPlain (files.node? found)) : files.resolve p = .ok found := by
  obtain ⟨directory, name, hp, hdirectory, hname, hup, hnode, rfl⟩ := place_eq_ok h
  rw [hp]
  exact follow_concat hname hup hdirectory hnode hplain

theorem isThere_of_place {found : List String} (h : files.place p = .ok found)
    (hplain : IsPlain (files.node? found)) : files.isThere p = .ok (files.node? found).isSome := by
  simp only [isThere, resolve_of_place h hplain]

theorem remove_of_place {found : List String} (h : files.place p = .ok found)
    (hfile : files.node? found = some (.file text)) : files.remove p = .ok (files.drop found) := by
  simp only [remove, h, bind, Except.bind, hfile]

theorem rename_of_place {here there : List String} (hhere : files.place source = .ok here)
    (hthere : files.place target = .ok there) (hfile : files.node? here = some (.file text))
    (hplain : IsPlain (files.node? there)) (hne : here ≠ there) :
    files.rename source target = .ok (files.moved here there) := by
  rcases hplain with hnone | ⟨old, hold⟩
  · simp only [rename, hhere, hthere, bind, Except.bind, hfile, hnone, if_neg hne]
  · simp only [rename, hhere, hthere, bind, Except.bind, hfile, hold, if_neg hne]

/-- A path leads to no link, since links are followed. -/
theorem follow_noLink {links : Nat} {found : List String}
    (hdone : ∀ q, q <+: done → files.node? q = some .directory)
    (h : files.follow links done rest = .ok found) (target : List String) :
    files.node? found ≠ some (.link target) := by
  fun_induction files.follow links done rest with
  | case1 links done =>
    obtain rfl : done = found := by simpa using h
    simp [hdone done List.prefix_rfl]
  | case2 => cases h
  | case3 links done rest hname ih => exact ih (directories_dropLast hdone) h
  | case4 links done name rest hname hup here hnode hlast =>
    obtain rfl : here = found := by simpa using h
    simp [hnode]
  | case5 => cases h
  | case6 links done name rest hname hup here hnode ih =>
    exact ih (directories_concat hdone hnode) h
  | case7 links done name rest hname hup here text hnode hlast =>
    obtain rfl : here = found := by simpa using h
    simp [hnode]
  | case8 => cases h
  | case9 => cases h
  | case10 done name rest hname hup here link hnode links ih => exact ih (directories_nil files) h

/-- Where only directories are on the way, a path is followed name by name. -/
theorem follow_append {links : Nat} (hnames : ∀ part ∈ rest, isName part = true ∧ part ≠ "..")
    (h : ∀ q, q <+: done ++ rest → files.node? q = some .directory) (more : List String) :
    files.follow links done (rest ++ more) = files.follow links (done ++ rest) more := by
  induction rest generalizing done with
  | nil => rw [List.nil_append, List.append_nil]
  | cons name rest ih =>
    obtain ⟨hname, hup⟩ := hnames name List.mem_cons_self
    have hsplit : done ++ name :: rest = done ++ [name] ++ rest := by simp
    rw [hsplit] at h
    rw [List.cons_append, follow_directory hname hup (h _ (List.prefix_append _ _)), hsplit]
    exact ih (fun part hpart => hnames part (List.mem_cons_of_mem _ hpart)) h

theorem follow_of_directories {links : Nat}
    (hnames : ∀ part ∈ rest, isName part = true ∧ part ≠ "..")
    (h : ∀ q, q <+: done ++ rest → files.node? q = some .directory) :
    files.follow links done rest = .ok (done ++ rest) := by
  have hall := @follow_append files done rest links hnames h []
  rwa [List.append_nil, follow] at hall

theorem place_of_directories (hnames : ∀ part ∈ p ++ [name], isName part = true ∧ part ≠ "..")
    (h : ∀ q ∈ p.inits, files.node? q = some .directory) :
    files.place (p ++ [name]) = .ok (p ++ [name]) := by
  have hdirectories : ∀ q, q <+: p → files.node? q = some .directory :=
    fun q hq => h q ((List.mem_inits q p).mpr hq)
  obtain ⟨hname, hup⟩ := hnames name (by simp)
  refine place_of_resolve ?_ (hdirectories p List.prefix_rfl) hname hup
  refine follow_of_directories (fun part hpart => hnames part ?_) hdirectories
  exact List.mem_append_left _ hpart

/-- Two trees that differ in plain files only. -/
theorem sameTree_of_eq_elsewhere
    (h : ∀ r, files.InDirectories r → r ≠ p → r ≠ q → other.node? r = files.node? r)
    (hp : IsPlain (files.node? p) ∧ IsPlain (other.node? p))
    (hq : IsPlain (files.node? q) ∧ IsPlain (other.node? q)) : files.SameTree other := by
  intro r hr
  by_cases hrp : r = p
  · exact .inr (hrp ▸ hp)
  · by_cases hrq : r = q
    · exact .inr (hrq ▸ hq)
    · exact .inl (h r hr hrp hrq)

/-- What was written is read again. -/
theorem read_write {after : Files} (h : files.write p text = .ok after) :
    after.read p = .ok text := by
  cases hresolve : files.resolve p with
  | error e => simp [write, hresolve, bind, Except.bind] at h
  | ok found =>
    simp only [write, hresolve, bind, Except.bind] at h
    split at h
    · cases h
    · next hnot =>
      obtain rfl : files.put found (.file text) = after := Except.ok.inj h
      have hplain : IsPlain (files.node? found) := by
        cases hnode : files.node? found with
        | none => exact .inl rfl
        | some node =>
          cases node with
          | directory => exact absurd hnode hnot
          | file old => exact .inr ⟨old, rfl⟩
          | link target => exact absurd hnode (follow_noLink (directories_nil files) hresolve target)
      have hput : ∀ q, (files.put found (.file text)).node? q =
          if q = found then some (.file text) else files.node? q := node?_put hplain.ne_nil
      have hsame : files.SameTree (files.put found (.file text)) := by
        intro q _
        rw [hput]
        by_cases hq : q = found
        · rw [hq, if_pos rfl]
          exact .inr ⟨hplain, .inr ⟨text, rfl⟩⟩
        · rw [if_neg hq]
          exact .inl rfl
      have hafter : (files.put found (.file text)).resolve p = .ok found :=
        follow_of_sameTree hsame (directories_nil files) hresolve
      simp only [read, hafter, bind, Except.bind, hput, if_true]

/-- A write succeeds if the tree admits it and the disk allows it. -/
theorem tryWrite_eq_ok_iff {after : Files} {disk : Verdict} :
    files.tryWrite p text disk = (after, .ok ()) ↔
      files.write p text = .ok after ∧ disk = .allows := by
  unfold tryWrite
  split <;> simp_all

end Files

end Jukebox
