import Jukebox.Format
import Jukebox.Json.Value

/-!
# Records in JSON

A record is written as an object, or as an array of its fields in their order.  Values are
never converted: a number is no string, and a number with a point is no integer.  One of
several alternatives is written as its name, or as an object whose only field has that
name and the value `null`.
-/

namespace Jukebox.Json

/-- What JSON offers to records. -/
def format : Format Value where
  isNull
    | .null => true
    | _ => false
  text
    | .text s => some s
    | _ => none
  flag
    | .flag b => some b
    | _ => none
  integer
    | .number (.integer n) => some n
    | _ => none
  single
    | .number (.integer n) => some (Single.ofInt n)
    | .number (.decimal d) => some (Single.ofDecimal d)
    | _ => none
  alternative
    | .text s => some s
    | .object [(name, .null)] => some name
    | _ => none
  items
    | .array items => some items
    | _ => none
  entries
    | .object fields => some fields
    | _ => none
  fields known
    | .object fields => Format.collect known fields
    | .array items => Format.inOrder known items
    | _ => none

end Jukebox.Json
