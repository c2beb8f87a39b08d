import Jukebox.Proofs.Files

/-!
# Directories without links

Where nothing is a link a path that does not lead upwards is its own place.  So what an operation
finds is told by what stands at the path, and a path through a directory that is not there leads
to nothing.  Making directories puts directories on the way where nothing stood and changes
nothing else (`Files.makeDirectories_eq_ok`).  Around a file that can be read, over links or not,
there are none to be made (`Files.makeDirectories_of_read`).
-/

namespace Jukebox

namespace Files

variable {files made after : Files} {p q done rest more folder : List String} {name : String}
  {text : String}

/-- A map from places to files and directories: nothing is a link, and whatever is there stands
in directories. -/
structure IsMap (files : Files) : Prop where
  noLink : ∀ p target, files.node? p ≠ some (.link target)
  inDirectories : ∀ p, files.node? p ≠ none → files.InDirectories p

theorem IsMap.directories (h : files.IsMap) (hp : files.node? p = some .directory) :
    ∀ q, q <+: p → files.node? q = some .directory := by
  intro q hinit
  by_cases heq : q = p
  · rwa [heq]
  · exact h.inDirectories p (by simp [hp]) q hinit heq

theorem mem_of_node? {node : FileNode} (hp : p ≠ []) (h : files.node? p = some node) :
    (p, node) ∈ files.nodes := by
  rw [node?_of_ne_nil hp, List.lookup_eq_some_iff] at h
  obtain ⟨before, behind, hnodes, -⟩ := h
  simp [hnodes]

/-- A list of entries without links, each in directories, is such a map. -/
theorem isMap_of_nodes
    (hlink : ∀ entry ∈ files.nodes, entry.2 = .directory ∨ ∃ text, entry.2 = .file text)
    (hway : ∀ entry ∈ files.nodes, ∀ q ∈ entry.1.inits, q ≠ entry.1 →
      files.node? q = some .directory) : files.IsMap where
  noLink := by
    intro p target h
    by_cases hp : p = []
    · subst hp
      cases h
    · rcases hlink _ (mem_of_node? hp h) with heq | ⟨text, heq⟩ <;> cases heq
  inDirectories := by
    intro p h q hinit hne
    have hp : p ≠ [] := by
      rintro rfl
      exact hne (List.prefix_nil.mp hinit)
    obtain ⟨node, hnode⟩ := Option.ne_none_iff_exists'.mp h
    exact hway _ (mem_of_node? hp hnode) q ((List.mem_inits q p).mpr hinit) hne

/-- A path that leads down, by names that can be names. -/
def LeadsDown (p : List String) : Prop := ∀ part ∈ p, isName part = true ∧ part ≠ ".."

theorem LeadsDown.init (h : LeadsDown p) (hinit : q <+: p) : LeadsDown q :=
  fun part hpart => h part (hinit.subset hpart)

theorem leadsDown_concat (h : LeadsDown p) (hname : isName name = true) (hup : name ≠ "..") :
    LeadsDown (p ++ [name]) := by
  intro part hpart
  rcases List.mem_append.mp hpart with hpart | hpart
  · exact h part hpart
  · rw [List.mem_singleton.mp hpart]
    exact ⟨hname, hup⟩

/-! ## What a path leads to -/

theorem ne_of_not_below (h : ¬p <+: q) : q ≠ p := by
  rintro rfl
  exact h List.prefix_rfl

/-- The directories that something stands in. -/
theorem InDirectories.directories (h : files.InDirectories (folder ++ [name])) :
    ∀ q, q <+: folder → files.node? q = some .directory := by
  intro q hinit
  apply h q (hinit.trans (List.prefix_append _ _))
  intro heq
  have hlength := hinit.length_le
  rw [heq, List.length_append, List.length_singleton] at hlength
  omega

theorem resolve_eq (hp : LeadsDown p) (hway : files.InDirectories p)
    (hlink : ∀ target, files.node? p ≠ some (.link target)) : files.resolve p = .ok p := by
  rcases List.eq_nil_or_concat' p with rfl | ⟨folder, name, rfl⟩
  · rw [resolve, follow]
  have hfolder : ∀ q, q <+: [] ++ folder → files.node? q = some .directory := hway.directories
  obtain ⟨hname, hup⟩ := hp name (by simp)
  rw [resolve, follow_append (hp.init (List.prefix_append _ _)) hfolder, List.nil_append]
  cases hnode : files.node? (folder ++ [name]) with
  | none => exact follow_plain hname hup (.inl hnode) _
  | some node =>
    cases node with
    | directory => rw [follow_directory hname hup hnode, follow]
    | file text => exact follow_plain hname hup (.inr ⟨text, hnode⟩) _
    | link target => exact absurd hnode (hlink target)

/-- A directory that is not there is missing on the way. -/
theorem follow_missing {links : Nat} (hdone : files.node? done = some .directory)
    (hrest : LeadsDown rest)
    (hway : ∀ q, q <+: done ++ rest → files.node? q = none ∨ files.node? q = some .directory)
    (hmissing : files.node? (done ++ rest) = none) :
    files.follow links done (rest ++ [name]) = .error .missing := by
  induction rest generalizing done with
  | nil =>
    rw [List.append_nil, hdone] at hmissing
    cases hmissing
  | cons part rest ih =>
    obtain ⟨hpart, hup⟩ := hrest part List.mem_cons_self
    have hsplit : done ++ part :: rest = done ++ [part] ++ rest := by simp
    rw [hsplit] at hway hmissing
    rcases hway (done ++ [part]) (List.prefix_append _ _) with hnone | hdirectory
    · rw [List.cons_append, follow]
      simp [hpart, hup, hnone]
    · rw [List.cons_append, follow_directory hpart hup hdirectory]
      exact ih hdirectory (fun part hpart => hrest part (List.mem_cons_of_mem _ hpart)) hway
        hmissing

theorem place_eq (hp : LeadsDown p) (hway : files.InDirectories p) (hne : p ≠ []) :
    files.place p = .ok p := by
  rcases List.eq_nil_or_concat' p with rfl | ⟨folder, name, rfl⟩
  · exact absurd rfl hne
  · apply place_of_directories hp
    intro q hq
    exact hway.directories q ((List.mem_inits q folder).mp hq)

/-- The way to a place stays while nothing changes but what stands at or below it or at or below
another place. -/
theorem InDirectories.of_elsewhere {other : Files} (h : files.InDirectories p) (hqp : ¬q <+: p)
    (hsame : ∀ r, ¬p <+: r → ¬q <+: r → other.node? r = files.node? r) :
    other.InDirectories p := by
  intro r hinit hne
  rw [hsame r]
  · exact h r hinit hne
  · intro hpr
    exact hne (hinit.eq_of_length_le hpr.length_le)
  · intro hqr
    exact hqp (hqr.trans hinit)

/-! ## What the operations find -/

/-- The text of what stands at a place. -/
def contents : Option FileNode → Except FileError String
  | some (.file text) => .ok text
  | some _ => .error .refused
  | none => .error .missing

theorem read_of_resolve (h : files.resolve p = .ok q) :
    files.read p = contents (files.node? q) := by
  simp only [read, h, bind, Except.bind]
  rfl

theorem contents_eq_ok {node : Option FileNode} :
    contents node = .ok text ↔ node = some (.file text) := by
  cases node with
  | none => simp [contents]
  | some node => cases node <;> simp [contents]

/-- Under a name that cannot be one nothing is read. -/
theorem read_refused (hfolder : LeadsDown folder)
    (hdirectories : ∀ q, q <+: folder → files.node? q = some .directory)
    (hname : ¬isName name = true) : files.read (folder ++ [name]) = .error .refused := by
  have hresolve : files.resolve (folder ++ [name]) = .error .refused := by
    rw [resolve, follow_append hfolder (by simpa using hdirectories), follow]
    simp [hname]
  simp only [read, hresolve, bind, Except.bind]

theorem isThere_of_resolve (h : files.resolve p = .ok q) :
    files.isThere p = .ok (files.node? q).isSome := by
  simp only [isThere, h]

theorem write_eq_ok (hresolve : files.resolve p = .ok q) (h : files.write p text = .ok after) :
    after = files.put q (.file text) ∧ files.node? q ≠ some .directory := by
  simp only [write, hresolve, bind, Except.bind] at h
  split at h
  · cases h
  · next hnode => exact ⟨(Except.ok.inj h).symm, hnode⟩

theorem remove_eq_ok (hplace : files.place p = .ok q) (h : files.remove p = .ok after) :
    after = files.drop q := by
  simp only [remove, hplace, bind, Except.bind] at h
  split at h
  · cases h
  · cases h
  · exact (Except.ok.inj h).symm

theorem rename_eq_ok {source target here there : List String}
    (hsource : files.place source = .ok here) (htarget : files.place target = .ok there)
    (hne : here ≠ there) (h : files.rename source target = .ok after) :
    after = files.moved here there := by
  simp only [rename, hsource, htarget, bind, Except.bind, if_neg hne] at h
  split at h
  · cases h
  · cases h
  · cases h
  · cases h
  · split at h
    · cases h
    · exact (Except.ok.inj h).symm
  · cases h
  · exact (Except.ok.inj h).symm

/-- What stands in a directory is among the names there. -/
theorem mem_names (hfolder : files.resolve folder = .ok folder)
    (hdirectory : files.node? folder = some .directory)
    (hthere : files.node? (folder ++ [name]) ≠ none) :
    ∃ names, files.names folder = .ok names ∧ name ∈ names := by
  obtain ⟨node, hnode⟩ := Option.ne_none_iff_exists'.mp hthere
  have hmem : (folder ++ [name], node) ∈ files.nodes := mem_of_node? (by simp) hnode
  simp only [names, hfolder, bind, Except.bind, hdirectory]
  refine ⟨_, rfl, List.mem_filterMap.mpr ⟨_, hmem, ?_⟩⟩
  simp

/-! ## Making directories -/

/-- Directories were made on the way to a place and at it, where nothing stood. -/
structure MakesWay (files made : Files) (p : List String) : Prop where
  names : ∀ part ∈ p, isName part = true
  directories : ∀ q, q <+: p → made.node? q = some .directory
  others : ∀ q, made.node? q = files.node? q ∨ q <+: p ∧ files.node? q = none

theorem MakesWay.noLink (h : MakesWay files made p)
    (hlink : ∀ q target, files.node? q ≠ some (.link target)) (q target : List String) :
    made.node? q ≠ some (.link target) := by
  rcases h.others q with heq | ⟨hinit, -⟩
  · rw [heq]
    exact hlink q target
  · rw [h.directories q hinit]
    simp

/-- On the way there was a directory or nothing. -/
theorem MakesWay.none_or_directory (h : MakesWay files made p) (hinit : q <+: p) :
    files.node? q = none ∨ files.node? q = some .directory := by
  rcases h.others q with heq | ⟨-, hnone⟩
  · rw [← heq]
    exact .inr (h.directories q hinit)
  · exact .inl hnone

theorem makeDirectory_eq_ok (hdone : LeadsDown done) (hup : name ≠ "..")
    (hdirectories : ∀ q, q <+: done → files.node? q = some .directory)
    (hlink : ∀ q target, files.node? q ≠ some (.link target))
    (h : files.makeDirectory (done ++ [name]) = .ok made) :
    MakesWay files made (done ++ [name]) := by
  have hname : isName name = true := by
    by_contra hname
    have hfollow : files.resolve (done ++ [name]) = .error .refused := by
      rw [resolve, follow_append hdone (by simpa using hdirectories), follow]
      simp [hname]
    simp [makeDirectory, hfollow, bind, Except.bind] at h
  have hresolve : files.resolve (done ++ [name]) = .ok (done ++ [name]) :=
    resolve_eq (leadsDown_concat hdone hname hup) (inDirectories_concat hdirectories name)
      (hlink _)
  have hnames : ∀ part ∈ done ++ [name], isName part = true :=
    fun part hpart => (leadsDown_concat hdone hname hup part hpart).1
  simp only [makeDirectory, hresolve, bind, Except.bind, if_true] at h
  split at h
  · next hnode =>
    obtain rfl : files = made := by simpa using h
    exact ⟨hnames, directories_concat hdirectories hnode, fun _ => .inl rfl⟩
  · cases h
  · next hnone =>
    obtain rfl : files.put (done ++ [name]) .directory = made := by simpa using h
    have hput : ∀ q, (files.put (done ++ [name]) .directory).node? q =
        if q = done ++ [name] then some .directory else files.node? q :=
      node?_put (by simp)
    refine ⟨hnames, ?_, ?_⟩
    · intro q hinit
      rw [hput]
      split_ifs with heq
      · rfl
      · exact inDirectories_concat hdirectories name q hinit heq
    · intro q
      rw [hput]
      split_ifs with heq
      · rw [heq]
        exact .inr ⟨List.prefix_rfl, hnone⟩
      · exact .inl rfl

theorem makeDirectoriesFrom_eq_ok (hdone : LeadsDown done) (hup : ".." ∉ rest)
    (hdirectories : ∀ q, q <+: done → files.node? q = some .directory)
    (hlink : ∀ q target, files.node? q ≠ some (.link target))
    (h : files.makeDirectoriesFrom done rest = .ok made) :
    MakesWay files made (done ++ rest) := by
  induction rest generalizing files done with
  | nil =>
    obtain rfl : files = made := by simpa [makeDirectoriesFrom] using h
    rw [List.append_nil]
    exact ⟨fun part hpart => (hdone part hpart).1, hdirectories, fun _ => .inl rfl⟩
  | cons name rest ih =>
    rw [List.mem_cons, not_or] at hup
    cases hfirst : files.makeDirectory (done ++ [name]) with
    | error e => simp [makeDirectoriesFrom, hfirst, bind, Except.bind] at h
    | ok first =>
      simp only [makeDirectoriesFrom, hfirst, bind, Except.bind] at h
      have hstep := makeDirectory_eq_ok hdone (Ne.symm hup.1) hdirectories hlink hfirst
      have hconcat : LeadsDown (done ++ [name]) :=
        leadsDown_concat hdone (hstep.names name (by simp)) (Ne.symm hup.1)
      have hrest := ih hconcat hup.2 hstep.directories (hstep.noLink hlink) h
      have hsplit : done ++ name :: rest = done ++ [name] ++ rest := by simp
      rw [hsplit]
      refine ⟨hrest.names, hrest.directories, ?_⟩
      intro q
      rcases hrest.others q with heq | ⟨hinit, hnone⟩
      · rw [heq]
        exact (hstep.others q).imp_right fun h => ⟨h.1.trans (List.prefix_append _ _), h.2⟩
      · -- The first directory is there already, so nothing stood here from the start.
        refine .inr ⟨hinit, ?_⟩
        rcases hstep.others q with heq | ⟨-, hnone⟩
        · exact heq ▸ hnone
        · exact hnone

/-- Making directories puts them where nothing stood on the way, and changes nothing else. -/
theorem makeDirectories_eq_ok (hup : ".." ∉ p)
    (hlink : ∀ q target, files.node? q ≠ some (.link target))
    (h : files.makeDirectories p = .ok made) : MakesWay files made p := by
  have hroot : LeadsDown [] := by
    intro part hpart
    cases hpart
  exact makeDirectoriesFrom_eq_ok hroot hup (directories_nil files) hlink h

/-! ## Directories that are there -/

/-- The way to something behind a path leads over a directory. -/
theorem exists_follow_of_append {links : Nat} {found : List String}
    (hdone : ∀ q, q <+: done → files.node? q = some .directory) (hmore : more ≠ [])
    (h : files.follow links done (rest ++ more) = .ok found) :
    ∃ directory, files.follow links done rest = .ok directory ∧
      files.node? directory = some .directory := by
  fun_induction files.follow links done rest with
  | case1 links done => exact ⟨done, rfl, hdone done List.prefix_rfl⟩
  | case2 links done name rest hname =>
    rw [List.cons_append, follow, if_pos hname] at h
    cases h
  | case3 links done rest hname ih =>
    rw [List.cons_append, follow_up] at h
    exact ih (directories_dropLast hdone) h
  | case6 links done name rest hname hup here hnode ih =>
    rw [List.cons_append, follow_directory (by simpa using hname) hup hnode] at h
    exact ih (directories_concat hdone hnode) h
  | case10 done name rest hname hup here target hnode links ih =>
    rw [List.cons_append, follow_link (by simpa using hname) hup hnode, ← List.append_assoc] at h
    exact ih (directories_nil files) h
  -- Nothing, a file, or one link too many ends the way here, and more was to follow.
  | case4 links done name rest hname hup here hnode
  | case5 links done name rest hname hup here hnode
  | case7 links done name rest hname hup here held hnode
  | case8 links done name rest hname hup here held hnode
  | case9 done name rest hname hup here target hnode =>
    rw [List.cons_append, follow, if_neg hname, if_neg hup] at h
    simp [here, hnode, hmore] at h

theorem read_eq_ok (h : files.read p = .ok text) :
    ∃ found, files.resolve p = .ok found ∧ files.node? found = some (.file text) := by
  cases hresolve : files.resolve p with
  | error e => simp [read, hresolve, bind, Except.bind] at h
  | ok found => exact ⟨found, rfl, contents_eq_ok.mp ((read_of_resolve hresolve).symm.trans h)⟩

/-- Where all directories of a path are there, none are made. -/
theorem makeDirectoriesFrom_of_there
    (h : ∀ q, q <+: done ++ rest → files.makeDirectory q = .ok files) :
    files.makeDirectoriesFrom done rest = .ok files := by
  induction rest generalizing done with
  | nil => rfl
  | cons name rest ih =>
    have hsplit : done ++ name :: rest = done ++ [name] ++ rest := by simp
    rw [hsplit] at h
    simp only [makeDirectoriesFrom, h _ (List.prefix_append _ _), bind, Except.bind]
    exact ih h

/-- Around a file that can be read all directories are there. -/
theorem makeDirectories_of_read (h : files.read p = .ok text) :
    files.makeDirectories p.dropLast = .ok files := by
  obtain ⟨found, hresolve, hfile⟩ := read_eq_ok h
  have hne : p ≠ [] := by
    rintro rfl
    obtain rfl : [] = found := by simpa [resolve, follow] using hresolve
    cases hfile
  refine makeDirectoriesFrom_of_there fun q hq => ?_
  obtain ⟨more, hmore⟩ := hq
  have hp : p = q ++ (more ++ [p.getLast hne]) := by
    rw [← List.append_assoc, hmore, List.nil_append, List.dropLast_append_getLast]
  rw [resolve, hp] at hresolve
  obtain ⟨directory, hfollow, hdirectory⟩ :=
    exists_follow_of_append (directories_nil files) (by simp) hresolve
  have hthere : files.resolve q = .ok directory := hfollow
  simp only [makeDirectory, hthere, bind, Except.bind, hdirectory]

/-- A file that can be read can be written. -/
theorem exists_write_of_read (h : files.read p = .ok text) (fresh : String) :
    ∃ after, files.write p fresh = .ok after := by
  obtain ⟨found, hresolve, hfile⟩ := read_eq_ok h
  exact ⟨files.put found (.file fresh), by simp only [write, hresolve, bind, Except.bind, hfile]⟩

/-- A file that can be read is written if the disk allows it, and can be read afterwards in any
case. -/
theorem tryWrite_of_read (h : files.read p = .ok text) (fresh : String) (disk : Verdict) :
    ∃ after result, files.tryWrite p fresh disk = (after, result) ∧
      (result = .ok () ↔ disk = .allows) ∧
      after.read p = .ok ((disk.leaves fresh).getD text) := by
  obtain ⟨written, hwritten⟩ := exists_write_of_read h fresh
  cases disk with
  | allows =>
    refine ⟨written, .ok (), by simp only [tryWrite, hwritten], by simp, ?_⟩
    exact read_write hwritten
  | refuses left =>
    cases left with
    | none => exact ⟨files, .error .refused, by simp [tryWrite, hwritten], by simp, h⟩
    | some part =>
      obtain ⟨torn, htorn⟩ := exists_write_of_read h part
      refine ⟨torn, .error .refused, ?_, by simp, read_write htorn⟩
      simp [tryWrite, hwritten, htorn, Except.toOption]

end Files

end Jukebox
