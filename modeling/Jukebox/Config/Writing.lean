import Jukebox.Config.Store

/-!
# Changing the settings step by step

A change of the settings is made in memory, then the settings are copied, and then the copy
is written; other changes may come in between.  Run through without interruption the steps
are `ConfigStore.updateMode` and `ConfigStore.updateSession`.
-/

namespace Jukebox

/-- A change of the settings. -/
inductive ConfigChange where
  | mode (mode : PlayMode)
  /-- The cookie of a session, and whether it comes from a login by picture. -/
  | session (cookie : String) (qr : Bool)
deriving DecidableEq, Repr

namespace ConfigChange

/-- The settings after a change. -/
def apply (c : Config) : ConfigChange → Config
  | .mode m => c.withMode m
  | .session cookie qr => c.withSession cookie qr

end ConfigChange

/-- Where a change of the settings stands. -/
inductive WritingStage where
  /-- About to change the settings in memory. -/
  | change (change : ConfigChange)
  /-- About to copy them. -/
  | copy
  /-- About to write the copy. -/
  | write (copy : Config)
  | finished (result : Except FileError Unit)

namespace WritingStage

/-- A change goes one step on. -/
def proceed (store : ConfigStore) (files : Files) :
    WritingStage → ConfigStore × Files × WritingStage
  | .change c => ({ store with current := c.apply store.current }, files, .copy)
  | .copy => (store, files, .write store.current)
  | .write config =>
    let (files, result) := ({ store with current := config } : ConfigStore).save files
    (store, files, .finished result)
  | .finished result => (store, files, .finished result)

/-- All steps, with nothing in between. -/
def run (store : ConfigStore) (files : Files) (change : ConfigChange) :
    ConfigStore × Files × WritingStage :=
  let (store, files, stage) := proceed store files (.change change)
  let (store, files, stage) := proceed store files stage
  proceed store files stage

theorem run_mode (store : ConfigStore) (files : Files) (mode : PlayMode) :
    run store files (.mode mode) =
      let (store, files, result) := store.updateMode files mode
      (store, files, .finished result) := rfl

theorem run_session (store : ConfigStore) (files : Files) (cookie : String) (qr : Bool) :
    run store files (.session cookie qr) =
      let (store, files, result) := store.updateSession files cookie qr
      (store, files, .finished result) := rfl

end WritingStage

end Jukebox
