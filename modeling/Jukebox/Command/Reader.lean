import Jukebox.Command.Basic

/-!
# Reading commands

A command is a message that begins with a certain sign and goes on with the name of a
command, in any case of letters.  A message with another name is no command at all; a
command whose words do not fit is answered with its usage.  Words behind those that a
command needs are passed over, unless they could mean something.
-/

namespace Jukebox.Command

/-- A word that may be an attribute: a sign and something behind it. -/
def isAttribute (word : String) : Bool :=
  match word.toList with
  | '@' :: _ :: _ | '#' :: _ :: _ => true
  | _ => false

/-- The words before the attributes at the end, and the attributes. -/
def cutAttributes (words : List String) : List String × List String :=
  ((words.reverse.dropWhile isAttribute).reverse, (words.reverse.takeWhile isAttribute).reverse)

/-- A query and its attributes. -/
def readQuery (words : List String) : Option String × PlayAttributes :=
  let (query, attributes) := cutAttributes words
  (if query.isEmpty then none else some (" ".intercalate query), .ofWords attributes)

/-- A number as it is typed. -/
def readNumber? (word : String) : Option Nat := Text.readWord? word.toList

/-- A place in the queue: counted from one as it is typed, from zero as it is meant. -/
def readPlace? (word : String) : Option Nat :=
  (readNumber? word).bind fun n => if n = 0 then none else some (n - 1)

/-- A word is the same as another but for the case of ASCII letters. -/
def isWord (expected word : String) : Bool :=
  expected.toList.map Char.toLower == word.toList.map Char.toLower

/-- The words behind `add`. -/
def readAdd (words : List String) : Except CommandUsage Command :=
  match readQuery words with
  | (some query, attributes) => .ok (.add query attributes)
  | (none, _) => .error .add

/-- The words behind `mode`. -/
def readMode (words : List String) : Except CommandUsage Command :=
  match words with
  | [] => .ok (.mode none)
  | word :: _ =>
    match (readNumber? word).bind PlayMode.ofIndex? with
    | some chosen => .ok (.mode (some chosen))
    | none => .error .mode

/-- The words behind `move`. -/
def readMove (words : List String) : Except CommandUsage Command :=
  match words.map readPlace? with
  | some i :: some j :: _ => .ok (.move i j)
  | _ => .error .move

/-- The words behind `rm`. -/
def readRemove (words : List String) : Except CommandUsage Command :=
  match words.map readPlace? with
  | some i :: _ => .ok (.remove i)
  | _ => .error .remove

/-- The words behind `ls`. -/
def readStatus (words : List String) : Except CommandUsage Command :=
  match words with
  | [] => .ok (.status standardLimit)
  | word :: _ =>
    match readNumber? word with
    | some limit => .ok (.status limit)
    | none => .error .status

/-- The words behind `import`. -/
def readImport (words : List String) : Except CommandUsage Command :=
  match words with
  | [name] => .ok (.importList name false)
  | [name, word] => if isWord "append" word then .ok (.importList name true) else .error .importList
  | _ => .error .importList

/-- The words behind `playlist`. -/
def readPlaylist (words : List String) : Except CommandUsage Command :=
  match words with
  | action :: word :: rest =>
    let target := " ".intercalate (word :: rest)
    if Text.lowercase action = "add" then .ok (.playlist false target)
    else if Text.lowercase action = "set" then .ok (.playlist true target)
    else .error .playlist
  | _ => .error .playlist

/-- The words behind `login`. -/
def readLogin (words : List String) : Except CommandUsage Command :=
  match words with
  | [how] => if isWord "qr" how then .ok .loginQr else .error .login
  | [how, phone] => if isWord "sms" how then .ok (.loginSms phone none) else .error .login
  | [how, phone, code] =>
    if isWord "sms" how then .ok (.loginSms phone (some code)) else .error .login
  | _ => .error .login

/-- The command with a name in lowercase and the words behind it; `none` where no command
has the name. -/
def ofWords? (name : String) (words : List String) : Option (Except CommandUsage Command) :=
  match name with
  | "play" | "p" =>
    let (query, attributes) := readQuery words
    some (.ok (.play query attributes))
  | "add" | "a" => some (readAdd words)
  | "next" | "n" => some (.ok .next)
  | "previous" | "pre" => some (.ok .previous)
  | "stop" => some (.ok .stop)
  | "pause" => some (.ok .pause)
  | "mode" => some (readMode words)
  | "move" | "mv" => some (readMove words)
  | "rm" | "remove" => some (readRemove words)
  | "shuffle" => some (.ok .shuffle)
  | "clear" => some (.ok .clear)
  | "ls" | "queue" => some (readStatus words)
  | "export" =>
    match words with
    | name :: _ => some (.ok (.exportList name))
    | [] => some (.error .exportList)
  | "import" => some (readImport words)
  | "lists" => some (.ok (.lists words.head?))
  | "playlist" => some (readPlaylist words)
  | "login" => some (readLogin words)
  | "join" => some (.ok .join)
  | "leave" => some (.ok .leave)
  | "help" | "h" => some (.ok .help)
  | _ => none

/-- The rest of a text behind a sign. -/
def behind? (sign text : List Char) : Option (List Char) :=
  if sign.isPrefixOf text then some (text.drop sign.length) else none

/-- The command that a message holds; `none` where it holds none. -/
def read (sign message : String) : Option (Except CommandUsage Command) := do
  let body ← behind? sign.toList (Text.trimmed message.toList)
  match (Text.words body).map String.ofList with
  | [] => none
  | name :: words => ofWords? (Text.lowercase name) words

end Jukebox.Command
