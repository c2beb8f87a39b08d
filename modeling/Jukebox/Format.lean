import Jukebox.Number.Single

/-!
# Reading records from a data format

A record is read from the values of some data format by the names of its fields.  A field
may be known by several names, an unknown field is passed over, and a field that occurs
twice, under whatever of its names, is refused.  `Format` collects what a data format has
to offer for this, so that one record can be read from several formats.
-/

namespace Jukebox

/-- What a data format offers to the records read from it. -/
structure Format (V : Type) where
  /-- The value stands for nothing. -/
  isNull : V → Bool
  /-- A string. -/
  text : V → Option String
  /-- A truth value. -/
  flag : V → Option Bool
  /-- An integer of any size. -/
  integer : V → Option Int
  /-- A number of single precision. -/
  single : V → Option Single
  /-- The name of one of several alternatives. -/
  alternative : V → Option String
  /-- The items of a list. -/
  items : V → Option (List V)
  /-- The names and values of a mapping whose names are free. -/
  entries : V → Option (List (String × V))
  /-- The fields of a record with these names, each under the first of its names. -/
  fields : List (List String) → V → Option (List (String × V))

namespace Format

variable {V α : Type}

/-- The one value written for a field with these names: `none` where it is written twice,
`some none` where it is absent. -/
def pick (written : List (String × V)) (names : List String) : Option (Option V) :=
  match written.filter fun field => names.contains field.1 with
  | [] => some none
  | [field] => some (some field.2)
  | _ => none

/-- The known fields among those written, each under the first of its names. -/
def collect (known : List (List String)) (written : List (String × V)) :
    Option (List (String × V)) :=
  known.foldr
    (fun names rest => do
      let rest ← rest
      match ← pick written names, names with
      | some v, name :: _ => return (name, v) :: rest
      | _, _ => return rest)
    (some [])

/-- The known fields in their order, written without names; fields at the end may be
absent, but none may be left over. -/
def inOrder (known : List (List String)) (written : List V) : Option (List (String × V)) :=
  if written.length ≤ known.length then
    some ((known.filterMap List.head?).zip written)
  else none

/-- A field that has to be present. -/
def required (fields : List (String × V)) (name : String) (read : V → Option α) : Option α :=
  (fields.lookup name).bind read

/-- A field that has a value where it is absent. -/
def withDefault (fields : List (String × V)) (name : String) (absent : α)
    (read : V → Option α) : Option α :=
  match fields.lookup name with
  | some v => read v
  | none => some absent

/-- A value that may be null. -/
def nullable (format : Format V) (read : V → Option α) (v : V) : Option (Option α) :=
  if format.isNull v then some none else (read v).map some

/-- A natural number up to a limit. -/
def natural (format : Format V) (limit : Nat) (v : V) : Option Nat :=
  (format.integer v).bind fun n =>
    if 0 ≤ n && n.toNat ≤ limit then some n.toNat else none

/-- A signed integer of 64 bits. -/
def signedWord (format : Format V) (v : V) : Option Int :=
  (format.integer v).bind fun n =>
    if -(Text.signedBound : Int) ≤ n && n < (Text.signedBound : Int) then some n else none

/-- A list of values that are read alike. -/
def list (format : Format V) (read : V → Option α) (v : V) : Option (List α) :=
  (format.items v).bind fun items => items.mapM read

end Format

end Jukebox
