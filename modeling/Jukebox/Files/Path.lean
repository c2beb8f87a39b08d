/-!
# Paths

A path is a string cut at slashes.  Empty parts and single dots say nothing, except a
single dot at the start.  The last part is the file's name unless it leads upwards; the
last dot of the name, if something stands before it, separates stem and extension.
-/

namespace Jukebox.Path

/-- The parts of a path between its slashes. -/
def parts (path : String) : List String :=
  (path.splitOn "/")

/-- The parts that say something. -/
def components (path : String) : List String :=
  match parts path with
  | [] => []
  | first :: rest =>
    (if first = "" then [] else [first]) ++ rest.filter fun part => part != "" && part != "."

/-- The name of the file that a path leads to. -/
def fileName? (path : String) : Option String :=
  match (components path).getLast? with
  | some name => if name = ".." || name = "." then none else some name
  | none => none

/-- Cut a list of characters at its last dot. -/
def cutAtLastDot (cs : List Char) : Option (List Char × List Char) :=
  match cs.reverse.span (· != '.') with
  | (_, []) => none
  | (after, _ :: before) => some (before.reverse, after.reverse)

/-- A file's name without its extension. -/
def stem (name : String) : String :=
  match cutAtLastDot name.toList with
  | some (before@(_ :: _), _) => String.ofList before
  | _ => name

/-- The extension of a file's name. -/
def extension? (name : String) : Option String :=
  match cutAtLastDot name.toList with
  | some (_ :: _, after) => some (String.ofList after)
  | _ => none

end Jukebox.Path
