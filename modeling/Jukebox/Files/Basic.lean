import Jukebox.Files.Path

/-!
# Files

Files, directories and links, each under its path from the root; the root is a directory
that is always there.  A link leads to another path from the root and is followed wherever
it stands, except by what removes or renames it.

What an operation comes to depends on what stands in the tree; beyond that the disk may refuse it
(`Verdict`).
-/

namespace Jukebox

/-- What stands under a path. -/
inductive FileNode where
  | directory
  | file (text : String)
  | link (target : List String)
deriving DecidableEq, Repr, Inhabited

/-- Why a file operation failed. -/
inductive FileError where
  /-- Nothing is there. -/
  | missing
  /-- Something else is wrong: a directory in place of a file, a file in place of a
  directory, a name that cannot be a name, links in a circle. -/
  | refused
deriving DecidableEq, Repr, Inhabited

/-- What the disk says to an operation that nothing in the tree is against. -/
inductive Verdict where
  | allows
  /-- It fails.  A file that was to be written holds this instead of the text, or else what it
  held before. -/
  | refuses (left : Option String)
deriving DecidableEq, Repr, Inhabited

/-- What a write of a text leaves in its file, if anything. -/
def Verdict.leaves (text : String) : Verdict → Option String
  | .allows => some text
  | .refuses left => left

/-- Paths from the root, each with what stands there. -/
structure Files where
  nodes : List (List String × FileNode)
deriving DecidableEq, Repr, Inhabited

namespace Files

/-- No files at all. -/
def empty : Files := ⟨[]⟩

/-- How many links are followed on one way. -/
def maxLinks : Nat := 40

/-- The longest name, in bytes. -/
def maxNameBytes : Nat := 255

/-- The parts of a written path. -/
def path (written : String) : List String :=
  (Path.parts written).filter fun part => part != "" && part != "."

/-- What stands at a path, links not followed. -/
def node? (files : Files) (at_ : List String) : Option FileNode :=
  if at_.isEmpty then some .directory else files.nodes.lookup at_

/-- A name that can be a name. -/
def isName (name : String) : Bool :=
  name.utf8ByteSize ≤ maxNameBytes && !name.toList.contains '\x00'

/-- Follow a path from the directory `done` on to what it leads to, which need not be
there, though the directory around it has to be.  Two dots lead back to the directory
around `done`. -/
def follow (files : Files) (links : Nat) (done rest : List String) :
    Except FileError (List String) :=
  match rest with
  | [] => .ok done
  | name :: rest =>
    if !isName name then .error .refused
    else if name = ".." then follow files links done.dropLast rest
    else
      let here := done ++ [name]
      match files.node? here with
      | none => if rest.isEmpty then .ok here else .error .missing
      | some .directory => follow files links here rest
      | some (.file _) => if rest.isEmpty then .ok here else .error .refused
      | some (.link target) =>
        match links with
        | 0 => .error .refused
        | links + 1 => follow files links [] (target ++ rest)
termination_by (links, rest.length)

/-- What a path leads to. -/
def resolve (files : Files) (p : List String) : Except FileError (List String) :=
  files.follow maxLinks [] p

/-- The place of a path, its last part not followed. -/
def place (files : Files) (p : List String) : Except FileError (List String) :=
  match p.getLast? with
  | none => .error .refused
  | some name => do
    let directory ← files.resolve p.dropLast
    if !isName name || name = ".." then .error .refused
    else match files.node? directory with
      | some .directory => .ok (directory ++ [name])
      | some _ => .error .refused
      | none => .error .missing

/-- The text of a file. -/
def read (files : Files) (p : List String) : Except FileError String := do
  match files.node? (← files.resolve p) with
  | some (.file text) => .ok text
  | some _ => .error .refused
  | none => .error .missing

/-- Whether something is there. -/
def isThere (files : Files) (p : List String) : Except FileError Bool :=
  match files.resolve p with
  | .ok found => .ok (files.node? found).isSome
  | .error .missing => .ok false
  | .error e => .error e

/-- Whether a written path leads to a file; with a slash at its end it leads to none. -/
def isFile (files : Files) (written : String) : Bool :=
  match (Path.parts written).getLast? with
  | none | some "" | some "." | some ".." => false
  | some _ => (files.read (path written)).toOption.isSome

/-- The files with something at a place. -/
def put (files : Files) (p : List String) (node : FileNode) : Files :=
  ⟨(p, node) :: files.nodes.filter fun entry => entry.1 != p⟩

/-- The files without what stands at a place. -/
def drop (files : Files) (p : List String) : Files :=
  ⟨files.nodes.filter fun entry => entry.1 != p⟩

/-- Write a file, which need not be there. -/
def write (files : Files) (p : List String) (text : String) : Except FileError Files := do
  let found ← files.resolve p
  match files.node? found with
  | some .directory => .error .refused
  | _ => .ok (files.put found (.file text))

/-- Write a file if the disk lets it.  The files come with the result, since a write that the disk
refuses may have touched the file. -/
def tryWrite (files : Files) (p : List String) (text : String) (disk : Verdict := .allows) :
    Files × Except FileError Unit :=
  match files.write p text, disk with
  | .error e, _ => (files, .error e)
  | .ok written, .allows => (written, .ok ())
  | .ok _, .refuses left =>
    ((left.bind fun part => (files.write p part).toOption).getD files, .error .refused)

/-- Make a directory, unless there is one. -/
def makeDirectory (files : Files) (p : List String) : Except FileError Files := do
  let found ← files.resolve p
  match files.node? found with
  | some .directory => .ok files
  | some _ => .error .refused
  | none => if found = p then .ok (files.put p .directory) else .error .refused

/-- Make a directory behind `done` and all directories on the way to it. -/
def makeDirectoriesFrom (files : Files) (done : List String) : List String → Except FileError Files
  | [] => .ok files
  | name :: rest => do
    let files ← files.makeDirectory (done ++ [name])
    files.makeDirectoriesFrom (done ++ [name]) rest

/-- Make a directory and all directories on the way to it. -/
def makeDirectories (files : Files) (p : List String) : Except FileError Files :=
  files.makeDirectoriesFrom [] p

/-- Remove a file or a link. -/
def remove (files : Files) (p : List String) : Except FileError Files := do
  let here ← files.place p
  match files.node? here with
  | none => .error .missing
  | some .directory => .error .refused
  | some _ => .ok (files.drop here)

/-- The files with everything at and below `source` moved to `target`. -/
def moved (files : Files) (source target : List String) : Files :=
  let kept := files.nodes.filter fun entry => entry.1 != target
  ⟨kept.map fun (p, node) =>
    if source.isPrefixOf p then (target ++ p.drop source.length, node) else (p, node)⟩

/-- Give something another path; a file that stands there is replaced. -/
def rename (files : Files) (source target : List String) : Except FileError Files := do
  let source ← files.place source
  let target ← files.place target
  match files.node? source, files.node? target with
  | none, _ => .error .missing
  | some .directory, some (.file _) => .error .refused
  | some .directory, some (.link _) => .error .refused
  | some .directory, some .directory => .error .refused
  | some .directory, none =>
    if source.isPrefixOf target then .error .refused else .ok (files.moved source target)
  | some _, some .directory => .error .refused
  | some _, _ => if source = target then .ok files else .ok (files.moved source target)

/-- Give something another path if the disk lets it. -/
def tryRename (files : Files) (source target : List String) (disk : Verdict := .allows) :
    Except FileError Files :=
  match disk with
  | .allows => files.rename source target
  | .refuses _ => .error .refused

/-- The names in a directory. -/
def names (files : Files) (p : List String) : Except FileError (List String) := do
  let found ← files.resolve p
  match files.node? found with
  | some .directory =>
    .ok (files.nodes.filterMap fun entry =>
      if entry.1.dropLast = found then entry.1.getLast? else none)
  | some _ => .error .refused
  | none => .error .missing

end Files

end Jukebox
