/-!
# The tokens of YAML text

Settings are kept in a part of YAML: block and flow collections, plain and quoted scalars,
comments and document marks.  Anchors, tags, directives and block scalars are refused.

The scanner turns indentation into tokens that open and close blocks.  Where a key may
begin it leaves an open place among the tokens, which is settled once a colon follows: on
the same line, and within the next thousand characters.
-/

namespace Jukebox.Yaml

/-- A token of YAML text. -/
inductive Token where
  | documentStart | documentEnd
  | blockSequence | blockMapping | blockEnd
  | openSequence | closeSequence | openMapping | closeMapping
  | comma | dash | key | value
  | scalar (text : String) (plain : Bool)
  /-- A place where a key may have begun. -/
  | place
  /-- A key that also opens a block mapping. -/
  | firstKey
deriving Repr, Inhabited, DecidableEq

/-- A place in the text. -/
structure Position where
  line : Nat
  column : Nat
  offset : Nat
deriving Repr, Inhabited

namespace Position

/-- Some characters further on the same line. -/
def right (p : Position) (n : Nat) : Position :=
  { p with column := p.column + n, offset := p.offset + n }

/-- At the beginning of the next line. -/
def down (p : Position) : Position := ⟨p.line + 1, 0, p.offset + 1⟩

end Position

/-- A place where a key may have begun. -/
structure Key where
  place : Nat
  position : Position
  required : Bool
deriving Repr, Inhabited

/-- The scanner between two tokens. -/
structure Scanner where
  position : Position
  /-- The columns of the open blocks, innermost first. -/
  indents : List Int
  /-- A key may begin here. -/
  keyAllowed : Bool
  /-- The possible key of each open flow collection and of the block around them,
  innermost first. -/
  keys : List (Option Key)
  tokens : Array Token
deriving Repr, Inhabited

/-- A space or a tab. -/
def isGap (c : Char) : Bool := c == ' ' || c == '\t'

/-- The text ends here, or a gap or a new line follows. -/
def endsWord : List Char → Bool
  | [] => true
  | c :: _ => isGap c || c == '\n'

/-- Three dashes or three dots that end here: a document mark if at the start of a line. -/
def isDocumentMark : List Char → Bool
  | '-' :: '-' :: '-' :: rest => endsWord rest
  | '.' :: '.' :: '.' :: rest => endsWord rest
  | _ => false

/-- A character that delimits flow collections. -/
def isFlowMark (c : Char) : Bool :=
  c == ',' || c == '[' || c == ']' || c == '{' || c == '}'

/-- A character that no plain scalar begins with, unless it is one of the first three and
a word goes on behind it. -/
def isIndicator (c : Char) : Bool :=
  isFlowMark c || ['-', '?', ':', '\t', '#', '&', '*', '!', '|', '>', '\'', '"', '%', '@',
    Char.ofNat 0x60].contains c

/-- A character that may stand in YAML text. -/
def isPrintable (c : Char) : Bool :=
  let n := c.toNat
  n == 9 || n == 10 || (0x20 ≤ n && n ≤ 0x7E) || n == 0x85 || (0xA0 ≤ n && n ≤ 0xFFFD)
    || 0x10000 ≤ n

/-- Every line end written as a single line feed. -/
def unifyLines : List Char → List Char
  | [] => []
  | '\r' :: '\n' :: cs => '\n' :: unifyLines cs
  | c :: cs => (if c == '\r' || c.toNat == 0x85 then '\n' else c) :: unifyLines cs

/-- Blank space inside a scalar that has not been decided on: spaces on a line, or line
ends, of which the first may have been cancelled by a backslash. -/
inductive Pending where
  | spaces (reversed : List Char)
  | breaks (count : Nat)
  | cancelled (count : Nat)

namespace Pending

/-- A line has ended. -/
def isLeading : Pending → Bool
  | .spaces _ => false
  | _ => true

/-- What blank space becomes once something follows it, in reverse: one line end becomes a
space, of several all but the first stay. -/
def settle : Pending → List Char
  | .spaces reversed => reversed
  | .breaks n => if n = 1 then [' '] else List.replicate (n - 1) '\n'
  | .cancelled n => List.replicate n '\n'

/-- One more space or tab. -/
def gap (c : Char) : Pending → Pending
  | .spaces reversed => .spaces (c :: reversed)
  | other => other

/-- One more line end. -/
def newLine : Pending → Pending
  | .spaces _ => .breaks 1
  | .breaks n => .breaks (n + 1)
  | .cancelled n => .cancelled (n + 1)

end Pending

/-- What was read of a scalar: its characters in reverse, the blank space behind them, and
where the reader stands. -/
structure Scalar where
  read : List Char
  pending : Pending
  position : Position

namespace Scalar

/-- Another character belongs to the scalar. -/
def push (s : Scalar) (c : Char) (width : Nat) : Scalar :=
  ⟨c :: (s.pending.settle ++ s.read), .spaces [], s.position.right width⟩

/-- Blank space before another character. -/
def skip (s : Scalar) (c : Char) : Scalar :=
  if c == '\n' then { s with pending := s.pending.newLine, position := s.position.down }
  else { s with pending := s.pending.gap c, position := s.position.right 1 }

end Scalar

/-- Read a plain scalar.  It ends before a colon that ends a word, before a comment or a
document mark, in a flow collection before a mark of it, and in a block before a line that
is not indented to `indent`.  `fresh` says that blank space has just been read. -/
def scanPlain (flow : Bool) (indent : Int) (s : Scalar) (fresh : Bool) :
    List Char → Option (Scalar × List Char)
  | [] => some (s, [])
  | c :: cs =>
    if isGap c then
      if s.pending.isLeading && s.position.column < indent && c == '\t' then none
      else scanPlain flow indent (s.skip c) true cs
    else if c == '\n' then scanPlain flow indent (s.skip c) true cs
    else if fresh && ((!flow && s.position.column < indent) || c == '#'
        || (s.position.column == 0 && isDocumentMark (c :: cs))) then some (s, c :: cs)
    else if flow && c == ':' && (match cs with | d :: _ => isFlowMark d || d == '?' | [] => false)
      then none
    else if (c == ':' && endsWord cs) || (flow && isFlowMark c) then some (s, c :: cs)
    else scanPlain flow indent (s.push c 1) false cs

/-- The character of an escape of one letter. -/
def escape? : Char → Option Char
  | '0' => some '\x00'
  | 'a' => some '\x07'
  | 'b' => some '\x08'
  | 't' => some '\t'
  | '\t' => some '\t'
  | 'n' => some '\n'
  | 'v' => some '\x0b'
  | 'f' => some '\x0c'
  | 'r' => some '\r'
  | 'e' => some '\x1b'
  | ' ' => some ' '
  | '"' => some '"'
  | '/' => some '/'
  | '\\' => some '\\'
  | 'N' => some '\u0085'
  | '_' => some '\u00a0'
  | 'L' => some '\u2028'
  | 'P' => some '\u2029'
  | _ => none

/-- The value of a hexadecimal digit. -/
def hexDigit? (c : Char) : Option Nat :=
  if '0' ≤ c && c ≤ '9' then some (c.toNat - 48)
  else if 'a' ≤ c && c ≤ 'f' then some (c.toNat - 87)
  else if 'A' ≤ c && c ≤ 'F' then some (c.toNat - 55)
  else none

/-- The character with a hexadecimal number. -/
def hexChar? (digits : List Char) : Option Char := do
  let values ← digits.mapM hexDigit?
  let n := values.foldl (fun n d => 16 * n + d) 0
  if n.isValidChar then some (Char.ofNat n) else none

/-- Read a scalar in single or double quotes, behind its opening quote. -/
def scanQuoted (double : Bool) (s : Scalar) : List Char → Option (Scalar × List Char)
  | [] => none
  | c :: cs =>
    if s.position.column == 0 && isDocumentMark (c :: cs) then none
    else if isGap c || c == '\n' then scanQuoted double (s.skip c) cs
    else if double then
      if c == '"' then
        some (⟨s.pending.settle ++ s.read, .spaces [], s.position.right 1⟩, cs)
      else if c == '\\' then
        match cs with
        | '\n' :: rest =>
          scanQuoted double
            ⟨s.pending.settle ++ s.read, .cancelled 0, s.position.down⟩ rest
        | 'x' :: a :: b :: rest =>
          match hexChar? [a, b] with
          | some c => scanQuoted double (s.push c 4) rest
          | none => none
        | 'u' :: a :: b :: c :: d :: rest =>
          match hexChar? [a, b, c, d] with
          | some c => scanQuoted double (s.push c 6) rest
          | none => none
        | 'U' :: a :: b :: c :: d :: e :: f :: g :: h :: rest =>
          match hexChar? [a, b, c, d, e, f, g, h] with
          | some c => scanQuoted double (s.push c 10) rest
          | none => none
        | d :: rest =>
          match escape? d with
          | some c => scanQuoted double (s.push c 2) rest
          | none => none
        | [] => none
      else scanQuoted double (s.push c 1) cs
    else if c == '\'' then
      match cs with
      | '\'' :: rest => scanQuoted double (s.push '\'' 2) rest
      | _ => some (⟨s.pending.settle ++ s.read, .spaces [], s.position.right 1⟩, cs)
    else scanQuoted double (s.push c 1) cs

namespace Scanner

/-- At the beginning of the text. -/
def start : Scanner := ⟨⟨0, 0, 0⟩, [], true, [none], #[]⟩

/-- The column of the innermost block. -/
def indent (s : Scanner) : Int := s.indents.headD (-1)

/-- Inside a flow collection. -/
def inFlow (s : Scanner) : Bool := 1 < s.keys.length

/-- The possible key of the innermost collection. -/
def possibleKey (s : Scanner) : Option Key := (s.keys.headD none)

/-- Another possible key of the innermost collection, or none. -/
def withKey (s : Scanner) (key : Option Key) : Scanner :=
  { s with keys := key :: s.keys.drop 1 }

/-- One more token. -/
def emit (s : Scanner) (token : Token) : Scanner :=
  { s with tokens := s.tokens.push token }

/-- Further to the right. -/
def right (s : Scanner) (n : Nat) : Scanner := { s with position := s.position.right n }

/-- Whether keys may begin from here on. -/
def allowKey (s : Scanner) (allowed : Bool) : Scanner := { s with keyAllowed := allowed }

/-- Give up the possible key; that is an error where one is required. -/
def dropKey (s : Scanner) : Option Scanner :=
  match s.possibleKey with
  | some key => if key.required then none else some (s.withKey none)
  | none => some s

/-- Note that a key may begin here. -/
def noteKey (s : Scanner) : Option Scanner :=
  if s.keyAllowed then do
    let s ← s.dropKey
    let required := !s.inFlow && s.indent == (s.position.column : Int)
    return (s.withKey (some ⟨s.tokens.size, s.position, required⟩)).emit .place
  else some s

/-- Give up the possible keys that stand too far back. -/
def dropStale (s : Scanner) : Option Scanner := do
  let keys ← s.keys.mapM fun key =>
    match key with
    | some k =>
      if k.position.line < s.position.line || k.position.offset + 1024 < s.position.offset then
        if k.required then none else some none
      else some key
    | none => some key
  return { s with keys }

/-- Close the blocks that are indented further than a column. -/
def unroll (s : Scanner) (column : Int) : Scanner :=
  if s.inFlow then s
  else
    let closed := s.indents.takeWhile (column < ·)
    { s with
      indents := s.indents.drop closed.length
      tokens := closed.foldl (fun tokens _ => tokens.push .blockEnd) s.tokens }

/-- Open a block here, unless one is open at this column. -/
def roll (s : Scanner) (token : Token) : Scanner :=
  if !s.inFlow && s.indent < s.position.column then
    { s.emit token with indents := (s.position.column : Int) :: s.indents }
  else s

/-- The next character that is neither blank nor part of a comment; blank lines make keys
possible again in a block. -/
def skipBlank (s : Scanner) (comment : Bool) : List Char → Scanner × List Char
  | [] => (s, [])
  | c :: cs =>
    if c == '\n' then
      skipBlank { s with position := s.position.down, keyAllowed := s.keyAllowed || !s.inFlow }
        false cs
    else if comment then skipBlank (s.right 1) true cs
    else if c == ' ' then skipBlank (s.right 1) false cs
    else if c == '\t' && (s.inFlow || !s.keyAllowed) then skipBlank (s.right 1) false cs
    else if c == '#' then skipBlank (s.right 1) true cs
    else if c.toNat == 0xFEFF && s.position.offset == 0 then skipBlank (s.right 1) false cs
    else (s, c :: cs)

/-- A scalar has been read. -/
def addScalar (s : Scanner) (scalar : Scalar) (plain : Bool) : Scanner :=
  { s.emit (.scalar (String.ofList scalar.read.reverse) plain) with
    position := scalar.position
    keyAllowed := plain && scalar.pending.isLeading }

/-- A colon: the possible key becomes one, or an empty key stands before it. -/
def colon (s : Scanner) : Option Scanner :=
  match s.possibleKey with
  | some key =>
    let opens := !s.inFlow && s.indent < key.position.column
    some <| (({ s with
      tokens := s.tokens.setIfInBounds key.place (if opens then .firstKey else .key)
      indents := if opens then (key.position.column : Int) :: s.indents else s.indents
      : Scanner }.withKey none).allowKey false).right 1 |>.emit .value
  | none =>
    if !s.inFlow && !s.keyAllowed then none
    else
      let s := s.roll .blockMapping
      some (((s.allowKey (!s.inFlow)).right 1).emit .value)

/-- A document mark. -/
def documentMark (s : Scanner) (token : Token) : Option Scanner := do
  let s ← (s.unroll (-1)).dropKey
  return ((s.allowKey false).right 3).emit token

/-- A mark that opens a flow collection. -/
def openFlow (s : Scanner) (token : Token) : Option Scanner := do
  let s ← s.noteKey
  return (({ s with keys := none :: s.keys }.allowKey true).right 1).emit token

/-- A mark that closes a flow collection. -/
def closeFlow (s : Scanner) (token : Token) : Option Scanner := do
  let s ← s.dropKey
  let s := if s.inFlow then { s with keys := s.keys.drop 1 } else s
  return ((s.allowKey false).right 1).emit token

/-- The end of the text. -/
def finish (s : Scanner) : Option (Array Token) := do
  let s ← s.dropStale
  let s ← (s.unroll (-1)).dropKey
  return s.tokens

/-- One token more; `cs` begins with it. -/
def token (s : Scanner) (c : Char) (cs : List Char) : Option (Scanner × List Char) := do
  let s ← s.dropStale
  let s := s.unroll s.position.column
  let lineStart := s.position.column == 0
  let dashes := lineStart && isDocumentMark (c :: cs)
  if lineStart && c == '%' then none
  else if dashes && c == '-' then return (← s.documentMark .documentStart, cs.drop 2)
  else if dashes && c == '.' then return (← s.documentMark .documentEnd, cs.drop 2)
  else if c == '[' then return (← s.openFlow .openSequence, cs)
  else if c == '{' then return (← s.openFlow .openMapping, cs)
  else if c == ']' then return (← s.closeFlow .closeSequence, cs)
  else if c == '}' then return (← s.closeFlow .closeMapping, cs)
  else if c == ',' then
    let s ← s.dropKey
    return (((s.allowKey true).right 1).emit .comma, cs)
  else if c == '-' && endsWord cs then
    if !s.inFlow && !s.keyAllowed then none
    else
      let s ← (s.roll .blockSequence).dropKey
      return (((s.allowKey true).right 1).emit .dash, cs)
  else if c == '?' && (s.inFlow || endsWord cs) then
    if !s.inFlow && !s.keyAllowed then none
    else
      let s ← (s.roll .blockMapping).dropKey
      return (((s.allowKey (!s.inFlow)).right 1).emit .key, cs)
  else if c == ':' && (s.inFlow || endsWord cs) then return (← s.colon, cs)
  else if c == '\'' || c == '"' then
    let s ← s.noteKey
    let (scalar, rest) ← scanQuoted (c == '"') ⟨[], .spaces [], s.position.right 1⟩ cs
    return (s.addScalar scalar false, rest)
  else if (c == '-' && !endsWord cs) || (!s.inFlow && (c == '?' || c == ':'))
      || !isIndicator c then
    let s ← s.noteKey
    let (scalar, rest) ←
      scanPlain s.inFlow (s.indent + 1) ⟨[], .spaces [], s.position⟩ false (c :: cs)
    return (s.addScalar scalar true, rest)
  else none

/-- Token by token to the end of the text; every token takes at least one character, so
`fuel` need not exceed the length of the text by more than one. -/
def run : Nat → Scanner → List Char → Option (Array Token)
  | 0, _, _ => none
  | fuel + 1, s, cs =>
    match s.skipBlank false cs with
    | (s, []) => s.finish
    | (s, c :: cs) => do
      let (s, cs) ← s.token c cs
      run fuel s cs

end Scanner

/-- The tokens of YAML text. -/
def scan (text : List Char) : Option (List Token) :=
  if text.all fun c => isPrintable c || c == '\r' then do
    let cs := unifyLines text
    let tokens ← Scanner.run (cs.length + 1) .start cs
    return tokens.toList.filter (· != .place)
  else none

end Jukebox.Yaml
