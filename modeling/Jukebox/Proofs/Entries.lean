import Mathlib.Data.List.Basic

/-!
# Entries under keys

A list of entries, each under a key; the first entry under a key is the one that is found.
-/

namespace Jukebox

namespace Entries

variable {κ α : Type} [BEq κ] [LawfulBEq κ] [DecidableEq κ]

theorem lookup_cons_eq (key : κ) (old : α) (entries : List (κ × α)) (sought : κ) :
    ((key, old) :: entries).lookup sought =
      if sought = key then some old else entries.lookup sought := by
  by_cases h : sought = key
  · subst h
    simp
  · simp [List.lookup_cons, beq_false_of_ne h, h]

/-- The entries without those under one key. -/
theorem lookup_filter_ne (entries : List (κ × α)) (gone sought : κ) :
    (entries.filter fun entry => entry.1 != gone).lookup sought =
      if sought = gone then none else entries.lookup sought := by
  induction entries with
  | nil => simp
  | cons entry entries ih =>
    obtain ⟨key, old⟩ := entry
    by_cases hkey : key = gone
    · subst hkey
      rw [List.filter_cons_of_neg (by simp), ih, lookup_cons_eq]
      split <;> simp_all
    · rw [List.filter_cons_of_pos (by simpa using hkey), lookup_cons_eq, ih, lookup_cons_eq]
      split <;> simp_all

/-- The entries under new keys: what is sought is what stood under the only key that has become
this one. -/
theorem lookup_rekey {entries : List (κ × α)} {rekey : κ → κ} {sought : κ} (former : κ)
    (h : ∀ entry ∈ entries, rekey entry.1 = sought ↔ entry.1 = former) :
    (entries.map fun entry => (rekey entry.1, entry.2)).lookup sought = entries.lookup former := by
  induction entries with
  | nil => rfl
  | cons entry entries ih =>
    obtain ⟨key, old⟩ := entry
    have hkey : rekey key = sought ↔ key = former := h (key, old) List.mem_cons_self
    have hrest := ih fun entry hentry => h entry (List.mem_cons_of_mem _ hentry)
    rw [List.map_cons, lookup_cons_eq, lookup_cons_eq, hrest]
    by_cases hformer : key = former
    · rw [if_pos (hkey.mpr hformer).symm, if_pos hformer.symm]
    · rw [if_neg fun heq => hformer (hkey.mp heq.symm), if_neg fun heq => hformer heq.symm]

/-- No key has become this one. -/
theorem lookup_rekey_eq_none {entries : List (κ × α)} {rekey : κ → κ} {sought : κ}
    (h : ∀ entry ∈ entries, rekey entry.1 ≠ sought) :
    (entries.map fun entry => (rekey entry.1, entry.2)).lookup sought = none := by
  induction entries with
  | nil => rfl
  | cons entry entries ih =>
    obtain ⟨key, old⟩ := entry
    have hkey : rekey key ≠ sought := h (key, old) List.mem_cons_self
    rw [List.map_cons, lookup_cons_eq, if_neg hkey.symm]
    exact ih fun entry hentry => h entry (List.mem_cons_of_mem _ hentry)

end Entries

end Jukebox
