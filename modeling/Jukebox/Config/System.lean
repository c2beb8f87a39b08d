import Jukebox.Config.Writing

/-!
# Changes of the settings in flight

Changes come at any time, and of all changes in flight any one may take the next step.
`ConfigSystem.Step` is one step of the whole, and `ConfigSystem.Reaches` any number.
-/

namespace Jukebox

/-- The settings, the files, and the changes that are under way. -/
structure ConfigSystem where
  store : ConfigStore
  files : Files
  inFlight : List WritingStage

namespace WritingStage

/-- A stage that is still under way. -/
def pending : WritingStage → List WritingStage
  | .finished _ => []
  | stage => [stage]

end WritingStage

namespace ConfigSystem

/-- The step of a change that stands between others. -/
def advance (s : ConfigSystem) (before : List WritingStage) (stage : WritingStage)
    (after : List WritingStage) : ConfigSystem :=
  let (store, files, next) := stage.proceed s.store s.files
  ⟨store, files, before ++ next.pending ++ after⟩

/-- What may happen next: a change comes in, or a change takes a step. -/
inductive Step : ConfigSystem → ConfigSystem → Prop
  | arrive (s : ConfigSystem) (change : ConfigChange) :
      Step s { s with inFlight := s.inFlight ++ [.change change] }
  | advance {s : ConfigSystem} (before : List WritingStage) (stage : WritingStage)
      (after : List WritingStage) (h : s.inFlight = before ++ stage :: after) :
      Step s (s.advance before stage after)

/-- Any number of steps. -/
inductive Reaches (s : ConfigSystem) : ConfigSystem → Prop
  | refl : Reaches s s
  | tail {t u : ConfigSystem} (h : Reaches s t) (step : Step t u) : Reaches s u

/-- No change is under way. -/
def Quiet (s : ConfigSystem) : Prop := s.inFlight = []

end ConfigSystem

end Jukebox
