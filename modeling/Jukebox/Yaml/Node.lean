import Jukebox.Yaml.Token

/-!
# YAML nodes

A text holds one document, and a document one node; an empty text counts as an empty
scalar.  The nodes are put together from tokens by descent; `fuel` bounds the depth and is
never short, since every level takes a token.
-/

namespace Jukebox.Yaml

/-- A node of a YAML document. -/
inductive Node where
  | scalar (text : String) (plain : Bool)
  | sequence (items : List Node)
  | mapping (entries : List (Node × Node))
deriving Repr, Inhabited

namespace Node

/-- The scalar that stands where nothing is written. -/
def blank : Node := .scalar "" true

/-- A node and the tokens behind it. -/
abbrev Parse := Option (Node × List Token)

mutual

/-- A node.  In a block (`block`) it may be a block collection; `bare` allows a sequence
that is not indented further than its key. -/
def parseNode (fuel : Nat) (block bare : Bool) (tokens : List Token) : Parse :=
  match fuel with
  | 0 => none
  | fuel + 1 =>
    match tokens with
    | .dash :: _ => if bare then parseBare fuel [] tokens else none
    | .scalar text plain :: rest => some (.scalar text plain, rest)
    | .openSequence :: rest => parseFlowSequence fuel [] rest
    | .openMapping :: rest => parseFlowMapping fuel [] rest
    | .blockSequence :: rest => if block then parseBlockSequence fuel [] rest else none
    | .blockMapping :: rest => if block then parseBlockMapping fuel [] rest else none
    | .firstKey :: rest => if block then parseBlockMapping fuel [] (.key :: rest) else none
    | _ => none

/-- What stands behind a key or a colon in a block; nothing may stand there. -/
def parseBlockPart (fuel : Nat) (tokens : List Token) : Parse :=
  match fuel with
  | 0 => none
  | fuel + 1 =>
    match tokens with
    | .key :: _ | .value :: _ | .blockEnd :: _ => some (blank, tokens)
    | _ => parseNode fuel true true tokens

/-- The entries of a block mapping behind those in `done`. -/
def parseBlockMapping (fuel : Nat) (done : List (Node × Node)) (tokens : List Token) : Parse :=
  match fuel with
  | 0 => none
  | fuel + 1 =>
    match tokens with
    | .key :: rest => do
      let (key, rest) ← parseBlockPart fuel rest
      match rest with
      | .value :: rest =>
        let (value, rest) ← parseBlockPart fuel rest
        parseBlockMapping fuel ((key, value) :: done) rest
      | rest => parseBlockMapping fuel ((key, blank) :: done) rest
    | .blockEnd :: rest => some (.mapping done.reverse, rest)
    | _ => none

/-- The items of a block sequence behind those in `done`. -/
def parseBlockSequence (fuel : Nat) (done : List Node) (tokens : List Token) : Parse :=
  match fuel with
  | 0 => none
  | fuel + 1 =>
    match tokens with
    | .dash :: .dash :: rest => parseBlockSequence fuel (blank :: done) (.dash :: rest)
    | .dash :: .blockEnd :: rest => some (.sequence (blank :: done).reverse, rest)
    | .dash :: rest => do
      let (item, rest) ← parseNode fuel true false rest
      parseBlockSequence fuel (item :: done) rest
    | .blockEnd :: rest => some (.sequence done.reverse, rest)
    | _ => none

/-- The items of a sequence that is not indented, behind those in `done`. -/
def parseBare (fuel : Nat) (done : List Node) (tokens : List Token) : Parse :=
  match fuel with
  | 0 => none
  | fuel + 1 =>
    match tokens with
    | .dash :: rest =>
      match rest with
      | .dash :: _ | .key :: _ | .value :: _ | .blockEnd :: _ =>
        parseBare fuel (blank :: done) rest
      | _ => do
        let (item, rest) ← parseNode fuel true false rest
        parseBare fuel (item :: done) rest
    | _ => some (.sequence done.reverse, tokens)

/-- A key and a value in a flow collection, up to the comma or the end; `tokens` begins
behind the mark of the key. -/
def parseFlowPair (fuel : Nat) (tokens : List Token) : Option ((Node × Node) × List Token) :=
  match fuel with
  | 0 => none
  | fuel + 1 => do
    let (key, rest) ← match tokens with
      | .value :: _ | .comma :: _ | .closeMapping :: _ | .closeSequence :: _ =>
        some (blank, tokens)
      | _ => parseNode fuel false false tokens
    match rest with
    | .value :: rest =>
      match rest with
      | .comma :: _ | .closeMapping :: _ | .closeSequence :: _ => some ((key, blank), rest)
      | _ => do
        let (value, rest) ← parseNode fuel false false rest
        some ((key, value), rest)
    | _ => some ((key, blank), rest)

/-- The items of a flow sequence behind those in `done`. -/
def parseFlowSequence (fuel : Nat) (done : List Node) (tokens : List Token) : Parse :=
  match fuel with
  | 0 => none
  | fuel + 1 =>
    match tokens with
    | .closeSequence :: rest => some (.sequence done.reverse, rest)
    | _ => do
      let (item, rest) ← match tokens with
        | .key :: rest =>
          (parseFlowPair fuel rest).map fun (pair, rest) => (Node.mapping [pair], rest)
        | _ => parseNode fuel false false tokens
      match rest with
      | .comma :: rest => parseFlowSequence fuel (item :: done) rest
      | .closeSequence :: rest => some (.sequence (item :: done).reverse, rest)
      | _ => none

/-- The entries of a flow mapping behind those in `done`. -/
def parseFlowMapping (fuel : Nat) (done : List (Node × Node)) (tokens : List Token) : Parse :=
  match fuel with
  | 0 => none
  | fuel + 1 =>
    match tokens with
    | .closeMapping :: rest => some (.mapping done.reverse, rest)
    | _ => do
      let (entry, rest) ← match tokens with
        | .key :: rest => parseFlowPair fuel rest
        | _ => (parseNode fuel false false tokens).map fun (key, rest) => ((key, blank), rest)
      match rest with
      | .comma :: rest => parseFlowMapping fuel (entry :: done) rest
      | .closeMapping :: rest => some (.mapping (entry :: done).reverse, rest)
      | _ => none

end

/-- Nothing follows a document but marks of its end. -/
def isFinished (tokens : List Token) : Bool :=
  tokens.all (· == .documentEnd)

/-- The node of a text that holds one document. -/
def ofTokens? (tokens : List Token) : Option Node :=
  let fuel := 4 * tokens.length + 4
  let (explicit, body) := match tokens with
    | .documentStart :: rest => (true, rest)
    | _ => (false, tokens)
  match body with
  | [] => some blank
  | token :: _ =>
    if explicit && (token == .documentEnd || token == .documentStart) then
      if isFinished body then some blank else none
    else
      match parseNode fuel true false body with
      | some (node, rest) => if isFinished rest then some node else none
      | none => none

/-- Read YAML text. -/
def read? (text : String) : Option Node :=
  (scan text.toList).bind ofTokens?

end Node

end Jukebox.Yaml
