import Jukebox.Error
import Jukebox.Format
import Jukebox.Text.Lowercase

/-!
# Play modes

A play mode says in which order the queue is played and whether a played track goes back
to its end.  A mode is chosen by its number or by one of its two names, in any case of
letters.
-/

namespace Jukebox

/-- The order in which the queue is played. -/
inductive PlayMode where
  | sequential | sequentialLoop | random | randomLoop
deriving DecidableEq, Repr, Inhabited

namespace PlayMode

/-- The modes in the order of their numbers. -/
def all : List PlayMode := [.sequential, .sequentialLoop, .random, .randomLoop]

/-- The number of a mode, from zero. -/
def index : PlayMode → Nat
  | .sequential => 0
  | .sequentialLoop => 1
  | .random => 2
  | .randomLoop => 3

/-- The mode with a number. -/
def ofIndex? (n : Nat) : Option PlayMode := all[n]?

/-- A played track goes back to the end of the queue. -/
def isLoop : PlayMode → Bool
  | .sequentialLoop | .randomLoop => true
  | .sequential | .random => false

/-- The queue is played in random order. -/
def isRandom : PlayMode → Bool
  | .random | .randomLoop => true
  | .sequential | .sequentialLoop => false

/-- The mode in the words of the chat. -/
def label : PlayMode → String
  | .sequential => "Secuencial"
  | .sequentialLoop => "Secuencial en bucle"
  | .random => "Aleatorio"
  | .randomLoop => "Aleatorio en bucle"

/-- The name of a mode in files. -/
def name : PlayMode → String
  | .sequential => "Sequential"
  | .sequentialLoop => "SequentialLoop"
  | .random => "Random"
  | .randomLoop => "RandomLoop"

/-- The former name of a mode in files. -/
def formerName : PlayMode → String
  | .sequential => "SeqPlay"
  | .sequentialLoop => "SeqLoopPlay"
  | .random => "RandomPlay"
  | .randomLoop => "RandomLoopPlay"

/-- The mode with a name, present or former. -/
def ofName? (s : String) : Option PlayMode :=
  all.find? fun mode => mode.name == s || mode.formerName == s

/-- The mode with a name in lowercase letters, present or former. -/
def ofLowercaseName? (s : String) : Option PlayMode :=
  all.find? fun mode =>
    mode.name.toList.map Char.toLower == s.toList
      || mode.formerName.toList.map Char.toLower == s.toList

/-- The mode that is typed: a number, or else a name in any case of letters. -/
def parse (s : String) : Except Error PlayMode :=
  let typed := Text.trim s
  match Text.readWord? typed.toList with
  | some n =>
    match ofIndex? n with
    | some mode => .ok mode
    | none => .error (.configuration s!"modo desconocido: {n}")
  | none =>
    let lower := Text.lowercase typed
    match ofLowercaseName? lower with
    | some mode => .ok mode
    | none => .error (.configuration ("modo desconocido: " ++ lower))

/-- A mode in a file, by its present or its former name. -/
def read {V : Type} (format : Format V) (v : V) : Option PlayMode :=
  (format.alternative v).bind ofName?

@[simp] theorem ofIndex?_index (mode : PlayMode) : ofIndex? mode.index = some mode := by
  cases mode <;> rfl

@[simp] theorem ofName?_name (mode : PlayMode) : ofName? mode.name = some mode := by
  cases mode <;> rfl

end PlayMode

end Jukebox
