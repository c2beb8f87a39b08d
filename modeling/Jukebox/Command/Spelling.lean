import Jukebox.Command.Basic

/-!
# How commands are typed

The words of each command as its usage documents them: places from one, the place to start
at in seconds behind `@`, and the source behind `#`.
-/

namespace Jukebox.Command

/-- A word for a source. -/
def sourceWord : AudioSource → String
  | .localFile => "#l"
  | .catalog => "#n"
  | .url => "#u"

/-- The words for attributes. -/
def attributeWords (attributes : PlayAttributes) : List String :=
  (attributes.offset.map fun span => s!"@{span.nanoseconds / 1000000000}").toList
    ++ (attributes.source.map sourceWord).toList

/-- The words of a phrase, which stand between single spaces. -/
def phraseWords (phrase : String) : List String :=
  (Text.pieces (· == ' ') phrase.toList).map String.ofList

/-- The words of a command, its name first; queries are taken apart at single spaces. -/
def words : Command → List String
  | .play query attributes =>
    "play" :: query.toList.flatMap phraseWords ++ attributeWords attributes
  | .add query attributes => "add" :: phraseWords query ++ attributeWords attributes
  | .next => ["next"]
  | .previous => ["previous"]
  | .stop => ["stop"]
  | .pause => ["pause"]
  | .mode chosen => "mode" :: (chosen.map fun m => toString m.index).toList
  | .move i j => ["move", toString (i + 1), toString (j + 1)]
  | .remove index => ["rm", toString (index + 1)]
  | .shuffle => ["shuffle"]
  | .clear => ["clear"]
  | .status limit => ["ls", toString limit]
  | .exportList name => ["export", name]
  | .importList name append => "import" :: name :: if append then ["append"] else []
  | .lists start => "lists" :: start.toList
  | .playlist replace target =>
    "playlist" :: (if replace then "set" else "add") :: phraseWords target
  | .loginQr => ["login", "qr"]
  | .loginSms phone code => "login" :: "sms" :: phone :: code.toList
  | .join => ["join"]
  | .leave => ["leave"]
  | .help => ["help"]

/-- A command as it is typed, with single spaces between its words. -/
def spelling (sign : String) (command : Command) : String :=
  sign ++ " ".intercalate command.words

end Jukebox.Command
