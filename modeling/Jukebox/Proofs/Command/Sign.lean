import Jukebox.Proofs.Command.Typing
import Jukebox.Proofs.Config.Validation

/-!
# Signs that are never heard

The sign that commands begin with is corrected only if it is empty, and a message loses the blank
space around it before the sign is looked for.  So a sign that begins with blank space is never
found, in whatever message; behind any other sign every name is understood that needs nothing
behind it (`Config.bare_names_understood_iff`).
-/

namespace Jukebox

open Jukebox.Text

/-- The first character is blank. -/
def BeginsBlank (text : String) : Prop := ∃ c ∈ text.toList.head?, isBlank c = true

instance (text : String) : Decidable (BeginsBlank text) :=
  decidable_of_iff (text.toList.head?.any isBlank = true) <| by
    simp [BeginsBlank, Option.any_eq_true]

theorem not_beginsBlank_iff {text : String} :
    ¬ BeginsBlank text ↔ ∀ c ∈ text.toList.head?, isBlank c = false := by
  simp [BeginsBlank]

namespace Command

variable {sign name : String} {command : Command}

/-- The names of commands that need nothing behind them, and what they stand for by themselves. -/
def bareNames : List (String × Command) := [
  ("play", .play none .empty), ("p", .play none .empty), ("next", .next), ("n", .next),
  ("previous", .previous), ("pre", .previous), ("stop", .stop), ("pause", .pause),
  ("mode", .mode none), ("shuffle", .shuffle), ("clear", .clear),
  ("ls", .status standardLimit), ("queue", .status standardLimit), ("lists", .lists none),
  ("join", .join), ("leave", .leave), ("help", .help), ("h", .help)]

theorem isName_of_mem_bareNames (h : (name, command) ∈ bareNames) : IsName name := by
  have hall : ∀ entry ∈ bareNames, IsName entry.1 := by decide
  exact hall _ h

/-- A name needs nothing behind it exactly if it is one of these. -/
theorem ofWords?_nil_iff :
    ofWords? name [] = some (.ok command) ↔ (name, command) ∈ bareNames := by
  constructor
  · intro h
    unfold ofWords? at h
    -- One case for each command: without words it either stands in the table or fails.
    split at h <;> simp_all [bareNames, eq_comm, readQuery, cutAttributes, readAdd, readMode,
      readMove, readRemove, readStatus, readImport, readPlaylist, readLogin,
      PlayAttributes.ofWords]
  · intro h
    have hall : ∀ entry ∈ bareNames, ofWords? entry.1 [] = some (.ok entry.2) := by decide
    exact hall _ h

/-- Behind a sign that does not begin with blank space, a name is read by itself. -/
theorem read_append_of_isName (hsign : ¬ BeginsBlank sign) (hname : IsName name) :
    read sign (sign ++ name) = ofWords? name [] := by
  have hword : IsWord name.toList := isWord_of_sameAsciiLetters hname (beq_self_eq_true _)
  have htrimmed : trimmed (sign ++ name).toList = sign.toList ++ name.toList := by
    rw [String.toList_append]
    exact trimmed_eq_self
      (isTrimmed_append (not_beginsBlank_iff.mp hsign) hword.1 hword.isTrimmed)
  have hlower : lowercase name = name :=
    lowercase_of_sameAsciiLetters hname (beq_self_eq_true _)
  rw [read, htrimmed, behind?_append]
  simp [words_of_isWord hword, hlower]

/-- A message does not begin with blank space once it is trimmed, so a sign that does is not
found. -/
theorem read_of_beginsBlank (hsign : BeginsBlank sign) (message : String) :
    read sign message = none := by
  obtain ⟨c, hc, hblank⟩ := hsign
  have hbehind : behind? sign.toList (trimmed message.toList) = none := by
    rw [behind?, if_neg]
    rw [List.isPrefixOf_iff_prefix]
    rintro ⟨rest, hrest⟩
    have hhead : c ∈ (trimmed message.toList).head? := by
      rw [← hrest, List.head?_append, Option.mem_def.mp hc]
      rfl
    have hfirst := (isTrimmed_trimmed message.toList).1 c hhead
    rw [hblank] at hfirst
    cases hfirst
  rw [read, hbehind]
  rfl

end Command

namespace Config

open Jukebox.Command

/-- A sign that is corrected does not begin with blank space. -/
theorem beginsBlank_commandPrefix_validate_iff (c : Config) :
    BeginsBlank c.validate.1.commandPrefix ↔ BeginsBlank c.commandPrefix := by
  rw [commandPrefix_validate]
  split
  · next hempty =>
    have hblank : ¬ BeginsBlank c.commandPrefix := by
      rw [String.isEmpty_iff.mp hempty]
      rintro ⟨_, ⟨⟩, -⟩
    exact iff_of_false (by decide) hblank
  · rfl

/-- With corrected settings, a name that needs nothing behind it is understood behind the sign
exactly if the sign does not begin with blank space.  With a sign that does, which is one that was
set so, no message at all is a command. -/
theorem bare_names_understood_iff (c : Config) (name : String) (command : Command)
    (h : (name, command) ∈ bareNames) :
    let sign := c.validate.1.commandPrefix
    (Command.read sign (sign ++ name) = some (.ok command) ↔ ¬ BeginsBlank sign) ∧
      (BeginsBlank sign → ∀ message, Command.read sign message = none) ∧
      (BeginsBlank sign ↔ BeginsBlank c.commandPrefix) := by
  intro sign
  refine ⟨?_, fun hblank message => read_of_beginsBlank hblank message,
    beginsBlank_commandPrefix_validate_iff c⟩
  constructor
  · intro hread hblank
    rw [read_of_beginsBlank hblank] at hread
    cases hread
  · intro hsign
    rw [read_append_of_isName hsign (isName_of_mem_bareNames h)]
    exact ofWords?_nil_iff.mpr h

/-- With blank space behind its mark a sign is found, although every message is trimmed; with blank
space in front of its mark it is not. -/
theorem bare_names_understood_iff_of_next :
    let behind := { standard with commandPrefix := "! " }
    let before := { standard with commandPrefix := " !" }
    ("next", Command.next) ∈ bareNames ∧
      behind.validate.1.commandPrefix = "! " ∧ Command.read "! " "! next" = some (.ok .next) ∧
      before.validate.1.commandPrefix = " !" ∧ Command.read " !" " !next" = none := by
  intro behind before
  have hnext : ("next", Command.next) ∈ bareNames := by decide
  have hbehind : behind.validate.1.commandPrefix = "! " := by
    rw [commandPrefix_validate]
    rfl
  have hbefore : before.validate.1.commandPrefix = " !" := by
    rw [commandPrefix_validate]
    rfl
  have hfound := (bare_names_understood_iff behind "next" .next hnext).1
  have hlost := (bare_names_understood_iff before "next" .next hnext).2.1
  rw [hbehind] at hfound
  rw [hbefore] at hlost
  exact ⟨hnext, hbehind, hfound.mpr (by decide), hbefore, hlost (by decide) " !next"⟩

end Config

end Jukebox
