/-!
# Named values

A row of names with values, in order.  Giving a name a value changes it in its place, or
adds it at the end.
-/

namespace Jukebox

/-- Names with values, in order. -/
abbrev Pairs := List (String × String)

namespace Pairs

/-- Give a name a value: in its place if it is there, else at the end. -/
def set (pairs : Pairs) (name value : String) : Pairs :=
  match pairs with
  | [] => [(name, value)]
  | (other, old) :: rest =>
    if other = name then (other, value) :: rest else (other, old) :: set rest name value

/-- Give names values, one after the other. -/
def override (pairs fresh : Pairs) : Pairs :=
  fresh.foldl (fun pairs pair => set pairs pair.1 pair.2) pairs

/-- The value of a name, or an empty one. -/
def value (pairs : Pairs) (name : String) : String :=
  (pairs.lookup name).getD ""

/-- Whether a name has a value. -/
def has (pairs : Pairs) (name : String) : Bool :=
  (pairs.lookup name).isSome

theorem lookup_set (pairs : Pairs) (name value : String) :
    (set pairs name value).lookup name = some value := by
  induction pairs with
  | nil => simp [set]
  | cons pair rest ih =>
    obtain ⟨other, old⟩ := pair
    unfold set
    split
    · rename_i h
      simp [h]
    · rename_i h
      have hne : (name == other) = false := by
        simpa using fun heq => h heq.symm
      simpa [List.lookup_cons, hne] using ih

end Pairs

end Jukebox
