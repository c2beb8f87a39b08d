/-!
# Shuffling

A random source is a row of random words of 32 bits; when it is used up, zeros follow.  A
number below a bound is drawn by multiplication, and words that would favour some numbers
are passed over.  Shuffling exchanges each place, from the last to the second, with a
random one at or before it.
-/

namespace Jukebox

/-- Random words that have not been used. -/
abbrev RandomWords := List UInt32

namespace RandomWords

/-- How many different words there are. -/
def wordCount : Nat := 4294967296

/-- The largest remainder that is accepted when a number below `bound` is drawn: the
greatest multiple of `bound` by a power of two in a word, less one. -/
def zone (bound : Nat) : Nat :=
  bound * Nat.pow 2 (31 - bound.log2) - 1

/-- A number below `bound`, and the words that are left. -/
def below (bound : Nat) : RandomWords → Nat × RandomWords
  | [] => (0, [])
  | w :: ws =>
    let product := w.toNat * bound
    if product % wordCount ≤ zone bound then (product / wordCount, ws) else below bound ws

end RandomWords

variable {α : Type}

/-- Exchange the places `i`, `i - 1`, … 1 of `items`, each with a random one at or before
it. -/
def shuffleFrom : Nat → Array α → RandomWords → Array α × RandomWords
  | 0, items, words => (items, words)
  | i + 1, items, words =>
    let (j, words) := RandomWords.below (i + 2) words
    shuffleFrom i (items.swapIfInBounds (i + 1) j) words

/-- The items in random order, and the words that are left. -/
def shuffle (items : List α) (words : RandomWords) : List α × RandomWords :=
  let (shuffled, words) := shuffleFrom (items.length - 1) items.toArray words
  (shuffled.toList, words)

theorem shuffleFrom_perm (i : Nat) (items : Array α) (words : RandomWords) :
    (shuffleFrom i items words).1.Perm items := by
  induction i generalizing items words with
  | zero => exact .rfl
  | succ i ih =>
    unfold shuffleFrom
    refine (ih _ _).trans ?_
    unfold Array.swapIfInBounds
    split
    · split
      · exact Array.swap_perm ..
      · exact .rfl
    · exact .rfl

/-- Shuffling neither adds nor loses an item. -/
theorem shuffle_perm (items : List α) (words : RandomWords) :
    (shuffle items words).1.Perm items := by
  have h := shuffleFrom_perm (items.length - 1) items.toArray words
  simpa [shuffle] using h.toList

end Jukebox
