import Jukebox.Format
import Jukebox.Json.Value
import Jukebox.Yaml.Node

/-!
# Records in YAML

A plain scalar stands for whatever is asked for, if it can: a number is accepted where a
text is expected.  A quoted scalar is always a text.  Nothing at all stands for an empty
record.
-/

namespace Jukebox.Yaml

/-- The digits of a number in some base. -/
def readDigits? (base : Nat) (cs : List Char) : Option Nat := do
  let values ← cs.mapM hexDigit?
  if values.isEmpty || values.any (base ≤ ·) then none
  else some (values.foldl (fun n d => base * n + d) 0)

/-- Digits with a zero in front are no number. -/
def hasLeadingZero (cs : List Char) : Bool :=
  let digits := match cs with
    | '-' :: rest => rest
    | '+' :: rest => rest
    | _ => cs
  match digits with
  | '0' :: rest@(_ :: _) => rest.all Text.isAsciiDigit
  | _ => false

/-- The magnitude of an integer, with the mark of its base. -/
def readMagnitude? : List Char → Option Nat
  | '0' :: 'x' :: rest => readDigits? 16 rest
  | '0' :: 'o' :: rest => readDigits? 8 rest
  | '0' :: 'b' :: rest => readDigits? 2 rest
  | cs => if hasLeadingZero cs then none else readDigits? 10 cs

/-- An integer as a plain scalar, within the numbers of 64 bits. -/
def readInteger? (cs : List Char) : Option Int :=
  match cs with
  | '-' :: rest =>
    (readMagnitude? rest).bind fun n => if n ≤ Text.signedBound then some (-(n : Int)) else none
  | '+' :: rest => (readMagnitude? rest).bind bounded
  | _ => (readMagnitude? cs).bind bounded
where
  /-- A natural number of 64 bits. -/
  bounded (n : Nat) : Option Int := if n ≤ Text.maxWord then some n else none

/-- A number of double precision as a plain scalar. -/
inductive Real where
  | nan
  | infinite (negative : Bool)
  | decimal (value : Decimal)

/-- A number with a point, an exponent or a name of its own. -/
def readReal? (cs : List Char) : Option Real :=
  let unsigned := match cs with
    | '+' :: rest => rest
    | _ => cs
  let word := String.ofList
  if [".inf", ".Inf", ".INF"].contains (word unsigned) then some (.infinite false)
  else if ["-.inf", "-.Inf", "-.INF"].contains (word cs) then some (.infinite true)
  else if [".nan", ".NaN", ".NAN"].contains (word cs) then some .nan
  else if unsigned != cs && (unsigned.head? == some '+' || unsigned.head? == some '-') then none
  else do
    let d ← Decimal.read? unsigned
    let _ ← BinaryFormat.double.ofDecimal d
    return .decimal d

/-- The truth value of a plain scalar. -/
def readFlag? (s : String) : Option Bool :=
  if ["true", "True", "TRUE"].contains s then some true
  else if ["false", "False", "FALSE"].contains s then some false
  else none

/-- A plain scalar that stands for nothing. -/
def isNull (s : String) : Bool :=
  ["", "~", "null", "Null", "NULL"].contains s

namespace Real

/-- The nearest number of single precision. -/
def single : Real → Single
  | .nan => .nan
  | .infinite negative => .infinite negative
  | .decimal d => Single.ofDecimal d

/-- The shortest text of the nearest number of double precision. -/
def text : Real → String
  | .nan => "NaN"
  | .infinite negative => if negative then "-inf" else "inf"
  | .decimal d =>
    let magnitude := BinaryFormat.double.magnitudeText
      ((BinaryFormat.double.ofDecimal d).getD 0)
    String.ofList (if d.negative then '-' :: magnitude else magnitude)

end Real

namespace Node

/-- The text of a plain scalar. -/
def plain? : Node → Option String
  | .scalar text true => some text
  | _ => none

/-- The text of a scalar. -/
def text? : Node → Option String
  | .scalar text _ => some text
  | _ => none

/-- The entries of a mapping with scalar keys; nothing at all has none. -/
def entries? : Node → Option (List (String × Node))
  | .mapping entries => entries.mapM fun (key, value) => key.text?.map fun name => (name, value)
  | .scalar "" true => some []
  | _ => none

end Node

/-- What YAML offers to records. -/
def format : Format Node where
  isNull node := match node.plain? with
    | some s => Yaml.isNull s
    | none => false
  text := Node.text?
  flag node := node.plain?.bind readFlag?
  integer node := node.plain?.bind fun s => readInteger? s.toList
  single node := node.plain?.bind fun s => (readReal? s.toList).map Real.single
  alternative := Node.text?
  items
    | .sequence items => some items
    | .scalar "" true => some []
    | _ => none
  entries := Node.entries?
  fields known node := node.entries?.bind (Format.collect known)

/-- A plain scalar as JSON: a number with a point as its shortest text. -/
def plainToJson (s : String) : Json.Value :=
  if isNull s then .null
  else match readFlag? s with
    | some b => .flag b
    | none =>
      match readInteger? s.toList with
      | some n => .ofInt n
      | none =>
        if hasLeadingZero s.toList then .text s
        else match readReal? s.toList with
          | some r => .text r.text
          | none => .text s

namespace Node

mutual

/-- A node as JSON; a key that occurs twice, or is no scalar, is refused. -/
def toJson? : Node → Option Json.Value
  | .scalar text plain => some (if plain then plainToJson text else .text text)
  | .sequence items => (itemsToJson? items).map .array
  | .mapping entries => do
    let fields ← entriesToJson? entries
    if (fields.map Prod.fst).eraseDups.length = fields.length then some (.object fields)
    else none

/-- The items of a sequence as JSON. -/
def itemsToJson? : List Node → Option (List Json.Value)
  | [] => some []
  | node :: rest => do
    let v ← toJson? node
    let vs ← itemsToJson? rest
    return v :: vs

/-- The entries of a mapping as JSON. -/
def entriesToJson? : List (Node × Node) → Option (List (String × Json.Value))
  | [] => some []
  | (key, node) :: rest => do
    let name ← key.text?
    let v ← toJson? node
    let fields ← entriesToJson? rest
    return (name, v) :: fields

end

end Node

end Jukebox.Yaml
