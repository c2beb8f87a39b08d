import Jukebox.Number.Decimal

/-!
# JSON values

A JSON value keeps the order of an object's fields, and keeps a field as often as it was
written, so that a record can refuse a repeated field.  An integer and a number with a
point or an exponent are different values.  What escapes only one half of a surrogate pair
is no text; it does no harm as long as nothing reads it.
-/

namespace Jukebox.Json

/-- A number as it was written. -/
inductive Number where
  | integer (value : Int)
  | decimal (value : Decimal)
deriving DecidableEq, Repr, Inhabited

/-- A JSON value. -/
inductive Value where
  | null
  | flag (value : Bool)
  | number (value : Number)
  | text (value : String)
  /-- A string with a half of a surrogate pair, or an object with such a name in it. -/
  | unreadable
  | array (items : List Value)
  | object (fields : List (String × Value))
deriving Repr, Inhabited

namespace Value

/-- A natural number as a value. -/
def ofNat (n : Nat) : Value := .number (.integer n)

/-- An integer as a value. -/
def ofInt (n : Int) : Value := .number (.integer n)

/-- An optional value, `null` where it is absent. -/
def ofOption {α : Type} (write : α → Value) : Option α → Value
  | none => .null
  | some a => write a

/-- A list of values. -/
def ofList {α : Type} (write : α → Value) (items : List α) : Value :=
  .array (items.map write)

/-- The first field of an object with this name. -/
def get? (name : String) : Value → Option Value
  | .object fields => (fields.find? fun field => field.1 == name).map (·.2)
  | _ => none

end Value

end Jukebox.Json
