import Jukebox.Json.Token

/-!
# Reading JSON

Tokens are put together from left to right, with the containers that are still open on a
stack, so nesting may be as deep as it likes.  Text is accepted when it holds exactly one
value.
-/

namespace Jukebox.Json

/-- Fields in reverse; nothing once a name among them cannot be read. -/
abbrev Fields := Option (List (String × Value))

namespace Fields

/-- One field more. -/
def add (fields : Fields) (name : Option String) (v : Value) : Fields := do
  return (← name, v) :: (← fields)

/-- The object with these fields. -/
def toObject (fields : Fields) : Value :=
  match fields with
  | some fields => .object fields.reverse
  | none => .unreadable

end Fields

/-- A container that is still open, with what it holds so far in reverse, and in an object
the name of the field that is being read. -/
inductive Open where
  | array (items : List Value)
  | object (fields : Fields) (name : Option String)
deriving Inhabited

/-- What may come next. -/
inductive Expecting where
  /-- A value. -/
  | value
  /-- A value, or the end of the array that was just opened. -/
  | firstItem
  /-- A field's name, or the end of the object that was just opened. -/
  | firstName
  /-- A field's name. -/
  | name (fields : Fields)
  /-- The colon after a field's name. -/
  | colon (fields : Fields) (name : Option String)
  /-- A comma or the end of the innermost container, where `value` has just been read; the
  end of the text if none is open. -/
  | next (value : Value)
deriving Inhabited

/-- The value of a token that is one. -/
def Token.value? : Token → Option Value
  | .text s => some (.text s)
  | .unreadable => some .unreadable
  | .atom v => some v
  | _ => none

/-- The name that a string is, if it can be read. -/
def Token.name? : Token → Option (Option String)
  | .text name => some (some name)
  | .unreadable => some none
  | _ => none

/-- One token more, with the containers that are open around it. -/
def accept : Expecting → List Open → Token → Option (Expecting × List Open)
  | .value, stack, .openArray => some (.firstItem, stack)
  | .value, stack, .openObject => some (.firstName, stack)
  | .value, stack, token => token.value?.map fun v => (.next v, stack)
  | .firstItem, stack, .closeArray => some (.next (.array []), stack)
  | .firstItem, stack, .openArray => some (.firstItem, .array [] :: stack)
  | .firstItem, stack, .openObject => some (.firstName, .array [] :: stack)
  | .firstItem, stack, token => token.value?.map fun v => (.next v, .array [] :: stack)
  | .firstName, stack, .closeObject => some (.next (.object []), stack)
  | .firstName, stack, token => token.name?.map fun name => (.colon (some []) name, stack)
  | .name fields, stack, token => token.name?.map fun name => (.colon fields name, stack)
  | .colon fields name, stack, .colon => some (.value, .object fields name :: stack)
  | .next v, .array items :: stack, .comma => some (.value, .array (v :: items) :: stack)
  | .next v, .array items :: stack, .closeArray =>
    some (.next (.array (v :: items).reverse), stack)
  | .next v, .object fields name :: stack, .comma => some (.name (fields.add name v), stack)
  | .next v, .object fields name :: stack, .closeObject =>
    some (.next (fields.add name v).toObject, stack)
  | _, _, _ => none

/-- The value of the tokens, if they are exactly one value. -/
def assemble : Expecting → List Open → List Token → Option Value
  | .next v, [], [] => some v
  | _, _, [] => none
  | expecting, stack, token :: tokens =>
    match accept expecting stack token with
    | some (expecting, stack) => assemble expecting stack tokens
    | none => none

/-- Read JSON text. -/
def read? (s : String) : Option Value :=
  (scan s.toList).bind (assemble .value [])

end Jukebox.Json
