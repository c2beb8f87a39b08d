/-!
# Blank characters, trimming and words

White space is the Unicode property `White_Space`, and nothing else: the zero width space
is an ordinary character, the ideographic space is not.  Trimming, cutting at separators
and splitting into words are functions on lists of characters.
-/

namespace Jukebox.Text

/-- A character with the Unicode property `White_Space`. -/
def isBlank (c : Char) : Bool :=
  let n := c.toNat
  (9 ≤ n && n ≤ 13) || n == 0x20 || n == 0x85 || n == 0xA0 || n == 0x1680
    || (0x2000 ≤ n && n ≤ 0x200A) || n == 0x2028 || n == 0x2029 || n == 0x202F
    || n == 0x205F || n == 0x3000

/-- The text without blank characters in front. -/
def trimStart (cs : List Char) : List Char :=
  cs.dropWhile isBlank

/-- The text without blank characters at its end. -/
def trimEnd (cs : List Char) : List Char :=
  (cs.reverse.dropWhile isBlank).reverse

/-- The text without blank characters at either end. -/
def trimmed (cs : List Char) : List Char :=
  trimEnd (trimStart cs)

/-- `trimmed` on strings. -/
def trim (s : String) : String :=
  String.ofList (trimmed s.toList)

/-- The pieces between the characters that satisfy `p`; there is one more piece than there
are such characters. -/
def pieces (p : Char → Bool) : List Char → List (List Char)
  | [] => [[]]
  | c :: cs =>
    if p c then [] :: pieces p cs
    else match pieces p cs with
      | [] => [[c]]
      | w :: ws => (c :: w) :: ws

/-- The maximal runs of characters that are not blank, in order. -/
def words (cs : List Char) : List (List Char) :=
  (pieces isBlank cs).filter (fun w => !w.isEmpty)

/-- Cut at the first occurrence of `c`: what stands before it and what stands after it. -/
def cutAt (c : Char) : List Char → Option (List Char × List Char)
  | [] => none
  | d :: ds =>
    if d = c then some ([], ds)
    else (cutAt c ds).map fun (before, after) => (d :: before, after)

theorem pieces_ne_nil (p : Char → Bool) (cs : List Char) : pieces p cs ≠ [] := by
  cases cs with
  | nil => simp [pieces]
  | cons c cs =>
    unfold pieces
    split
    · simp
    · split <;> simp

end Jukebox.Text
