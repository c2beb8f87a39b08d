import Mathlib.Data.List.DropRight
import Jukebox.Text.Blank
import Jukebox.Text.Lowercase
import Jukebox.Text.Numeral

/-!
# Pieces, words and numerals

A text determines its pieces between separators, and they determine it; a cut is made at the first
separator; trimming leaves a text alone if neither end of it is blank; the words of a text are found
however much blank space there is between them; and a numeral stands for the number that it was
written for.
-/

namespace Jukebox

namespace Text

variable {c : Char} {cs before after part : List Char} {parts : List (List Char)}

/-! ## Pieces -/

theorem pieces_eq_splitOn (c : Char) (cs : List Char) : pieces (· == c) cs = cs.splitOn c := by
  rw [List.splitOn_eq_splitOnP]
  induction cs with
  | nil => rfl
  | cons d cs ih =>
    rw [pieces, ih, List.splitOnP_cons_eq_if_modifyHead]
    split
    · rfl
    · cases hpieces : cs.splitOnP (· == c) with
      | nil => exact absurd hpieces (List.splitOnP_ne_nil _ _)
      | cons part parts => rfl

theorem not_mem_of_mem_pieces (h : part ∈ pieces (· == c) cs) : c ∉ part := by
  induction cs generalizing part with
  | nil => simp [List.mem_singleton.mp h]
  | cons d cs ih =>
    unfold pieces at h
    split at h
    · rcases List.mem_cons.mp h with rfl | h
      · exact List.not_mem_nil
      · exact ih h
    · next hd =>
      have hne : c ≠ d := by
        rintro rfl
        exact hd (beq_self_eq_true c)
      split at h
      · simp [List.mem_singleton.mp h, hne]
      · next first rest heq =>
        rw [heq] at ih
        rcases List.mem_cons.mp h with rfl | h
        · rw [List.mem_cons, not_or]
          exact ⟨hne, ih List.mem_cons_self⟩
        · exact ih (List.mem_cons_of_mem _ h)

/-- The pieces of a text are the only parts without the separator that make it up. -/
theorem eq_pieces_iff :
    parts = pieces (· == c) cs ↔
      parts ≠ [] ∧ (∀ part ∈ parts, c ∉ part) ∧ [c].intercalate parts = cs := by
  constructor
  · rintro rfl
    refine ⟨pieces_ne_nil _ cs, fun part => not_mem_of_mem_pieces, ?_⟩
    rw [pieces_eq_splitOn, List.intercalate_splitOn]
  · rintro ⟨hne, hparts, rfl⟩
    rw [pieces_eq_splitOn, List.splitOn_intercalate c hparts hne]

/-- The second character of a separator may as well be the first one of the next part. -/
theorem intercalate_shift (c d : Char) (part : List Char) (parts : List (List Char)) :
    [c, d].intercalate (part :: parts) = [c].intercalate (part :: parts.map (d :: ·)) := by
  induction parts generalizing part with
  | nil => rfl
  | cons next parts ih =>
    rw [List.intercalate_cons_cons, ih, List.map_cons, List.intercalate_cons_cons]
    cases parts with
    | nil => simp
    | cons last parts => simp [List.intercalate_cons_cons]

theorem intercalate_cons (gap part : List Char) (later : List (List Char)) :
    gap.intercalate (part :: later) = part ++ later.flatMap (gap ++ ·) := by
  induction later generalizing part with
  | nil => simp
  | cons next later ih =>
    rw [List.intercalate_cons_cons, ih]
    simp

theorem intercalate_append_cons (gap part : List Char) (first later : List (List Char)) :
    gap.intercalate (first ++ part :: later) =
      first.flatMap (· ++ gap) ++ (part ++ later.flatMap (gap ++ ·)) := by
  induction first with
  | nil => exact intercalate_cons gap part later
  | cons next first ih =>
    rw [List.cons_append, List.intercalate_cons_of_ne_nil (by simp), ih]
    simp

/-! ## Cuts -/

theorem cutAt_eq_none_iff : cutAt c cs = none ↔ c ∉ cs := by
  induction cs with
  | nil => simp [cutAt]
  | cons d cs ih =>
    unfold cutAt
    split
    · next heq => simp [heq]
    · next hne => simp [ih, Ne.symm hne]

theorem cutAt_append (h : c ∉ before) (after : List Char) :
    cutAt c (before ++ c :: after) = some (before, after) := by
  induction before with
  | nil => simp [cutAt]
  | cons d before ih =>
    rw [List.mem_cons, not_or] at h
    rw [List.cons_append, cutAt, if_neg (Ne.symm h.1), ih h.2]
    rfl

theorem eq_append_of_cutAt (h : cutAt c cs = some (before, after)) :
    c ∉ before ∧ cs = before ++ c :: after := by
  induction cs generalizing before with
  | nil => cases h
  | cons d cs ih =>
    unfold cutAt at h
    split at h
    · next heq =>
      cases h
      exact ⟨List.not_mem_nil, by rw [heq, List.nil_append]⟩
    · next hne =>
      obtain ⟨⟨before', after'⟩, hcut, heq⟩ := Option.map_eq_some_iff.mp h
      cases heq
      obtain ⟨hnot, rfl⟩ := ih hcut
      exact ⟨by simp [hnot, Ne.symm hne], rfl⟩

/-! ## Trimming -/

/-- Neither the first nor the last character is blank. -/
def IsTrimmed (cs : List Char) : Prop :=
  (∀ c ∈ cs.head?, isBlank c = false) ∧ ∀ c ∈ cs.getLast?, isBlank c = false

theorem rdropWhile_append_of_forall {α : Type} {p : α → Bool} {xs ys : List α}
    (h : ∀ y ∈ ys, p y = true) : (xs ++ ys).rdropWhile p = xs.rdropWhile p := by
  rw [List.rdropWhile, List.rdropWhile, List.reverse_append, List.dropWhile_append_of_pos]
  intro y hy
  exact h y (List.mem_reverse.mp hy)

theorem trimEnd_eq_rdropWhile (cs : List Char) : trimEnd cs = cs.rdropWhile isBlank := rfl

theorem trimEnd_eq_self (h : ∀ c ∈ cs.getLast?, isBlank c = false) : trimEnd cs = cs := by
  rw [trimEnd_eq_rdropWhile, List.rdropWhile_eq_self_iff]
  intro hne
  rw [h _ (List.getLast?_eq_some_getLast hne)]
  exact Bool.false_ne_true

theorem trimmed_sublist (cs : List Char) : (trimmed cs).Sublist cs := by
  rw [trimmed, trimEnd_eq_rdropWhile]
  exact (List.rdropWhile_prefix _ _).sublist.trans (List.dropWhile_sublist _)

theorem isTrimmed_trimmed (cs : List Char) : IsTrimmed (trimmed cs) := by
  have hprefix : trimmed cs <+: trimStart cs := List.rdropWhile_prefix isBlank (trimStart cs)
  constructor
  · intro c hc
    obtain ⟨rest, hrest⟩ := hprefix
    have hhead : (trimStart cs).head? = some c := by
      rw [← hrest, List.head?_append, Option.mem_def.mp hc]
      rfl
    have hfirst := List.head?_dropWhile_not isBlank cs
    unfold trimStart at hhead
    rw [hhead] at hfirst
    exact hfirst
  · intro c hc
    obtain ⟨hne, hlast⟩ := List.mem_getLast?_eq_getLast hc
    rw [hlast]
    exact Bool.eq_false_iff.mpr (List.rdropWhile_last_not isBlank (trimStart cs) hne)

theorem trimmed_eq_self (h : IsTrimmed cs) : trimmed cs = cs := by
  have hstart : trimStart cs = cs := by
    cases cs with
    | nil => rfl
    | cons c cs => exact List.dropWhile_cons_of_neg (by simp [h.1 c rfl])
  rw [trimmed, hstart, trimEnd_eq_self h.2]

theorem trimmed_eq_nil_iff : trimmed cs = [] ↔ ∀ c ∈ cs, isBlank c = true := by
  rw [trimmed, trimEnd_eq_rdropWhile, List.rdropWhile_eq_nil_iff, trimStart]
  constructor
  · intro h c hc
    rw [← List.takeWhile_append_dropWhile (p := isBlank) (l := cs), List.mem_append] at hc
    exact hc.elim List.mem_takeWhile_imp (h c)
  · intro h c hc
    exact h c ((List.dropWhile_sublist _).mem hc)

theorem trimmed_cons_of_isBlank (h : isBlank c = true) (cs : List Char) :
    trimmed (c :: cs) = trimmed cs := by
  rw [trimmed, trimStart, List.dropWhile_cons_of_pos h]
  rfl

/-- Blank space around a text that neither begins nor ends with it is all that trimming removes. -/
theorem trimmed_between (h : IsTrimmed cs) (hne : cs ≠ [])
    (hbefore : ∀ c ∈ before, isBlank c = true) (hafter : ∀ c ∈ after, isBlank c = true) :
    trimmed (before ++ cs ++ after) = cs := by
  have hstart : trimStart (before ++ cs ++ after) = cs ++ after := by
    rw [trimStart, List.append_assoc, List.dropWhile_append_of_pos hbefore]
    cases cs with
    | nil => exact absurd rfl hne
    | cons c cs =>
      have hfirst : isBlank c = false := h.1 c rfl
      exact List.dropWhile_cons_of_neg (by simp [hfirst])
  rw [trimmed, hstart, trimEnd_eq_rdropWhile, rdropWhile_append_of_forall hafter,
    ← trimEnd_eq_rdropWhile, trimEnd_eq_self h.2]

/-! ## Words -/

/-- At least one character, and none of them blank. -/
def IsWord (word : List Char) : Prop := word ≠ [] ∧ ∀ c ∈ word, isBlank c = false

theorem all_iff_isWord (word : List Char) :
    (!word.isEmpty && word.all fun c => !isBlank c) = true ↔ IsWord word := by
  simp [IsWord]

instance (word : List Char) : Decidable (IsWord word) := decidable_of_iff _ (all_iff_isWord word)

/-- A text of these words, in order, with blank space between each two of them. -/
inductive Spaced : List (List Char) → List Char → Prop
  | last (word : List Char) : Spaced [word] word
  | cons {word gap text : List Char} {words : List (List Char)} (hgap : gap ≠ [])
      (hblank : ∀ c ∈ gap, isBlank c = true) (rest : Spaced words text) :
      Spaced (word :: words) (word ++ gap ++ text)

theorem IsWord.isTrimmed (h : IsWord cs) : IsTrimmed cs :=
  ⟨fun c hc => h.2 c (List.mem_of_mem_head? hc), fun c hc => h.2 c (List.mem_of_mem_getLast? hc)⟩

theorem pieces_of_forall {p : Char → Bool} (h : ∀ c ∈ cs, p c = false) : pieces p cs = [cs] := by
  induction cs with
  | nil => rfl
  | cons c cs ih =>
    have hc : p c = false := h c List.mem_cons_self
    have hcs : pieces p cs = [cs] := ih fun d hd => h d (List.mem_cons_of_mem c hd)
    simp only [pieces, hc, hcs, Bool.false_eq_true, if_false]

theorem pieces_append_cons {p : Char → Bool} (h : ∀ c ∈ before, p c = false) (hc : p c = true)
    (after : List Char) : pieces p (before ++ c :: after) = before :: pieces p after := by
  induction before with
  | nil => simp only [List.nil_append, pieces, hc, if_true]
  | cons d before ih =>
    have hd : p d = false := h d List.mem_cons_self
    have hrest := ih fun e he => h e (List.mem_cons_of_mem d he)
    simp only [List.cons_append, pieces, hd, hrest, Bool.false_eq_true, if_false]

theorem words_of_isWord (h : IsWord cs) : words cs = [cs] := by
  rw [words, pieces_of_forall h.2]
  exact List.filter_eq_self.mpr (by simpa using h.1)

theorem words_cons_of_isBlank (h : isBlank c = true) (cs : List Char) :
    words (c :: cs) = words cs := by
  simp only [words, pieces, h, if_true, List.filter_cons, List.isEmpty_nil, Bool.not_true,
    Bool.false_eq_true, if_false]

theorem words_append_of_blank (h : ∀ c ∈ before, isBlank c = true) (cs : List Char) :
    words (before ++ cs) = words cs := by
  induction before with
  | nil => rfl
  | cons c before ih =>
    rw [List.cons_append, words_cons_of_isBlank (h c List.mem_cons_self)]
    exact ih fun d hd => h d (List.mem_cons_of_mem c hd)

theorem spaced_intercalate {ws : List (List Char)} (hne : ws ≠ []) :
    Spaced ws ([' '].intercalate ws) := by
  induction ws with
  | nil => exact absurd rfl hne
  | cons w ws ih =>
    cases ws with
    | nil =>
      rw [List.intercalate_singleton]
      exact Spaced.last w
    | cons w' ws =>
      rw [List.intercalate_cons_cons]
      exact Spaced.cons (List.cons_ne_nil _ _) (List.forall_mem_singleton.mpr rfl)
        (ih (List.cons_ne_nil _ _))

/-- The words of a text are found whatever the blank space between them is. -/
theorem words_of_spaced {ws : List (List Char)} (h : Spaced ws cs) (hws : ∀ w ∈ ws, IsWord w) :
    words cs = ws := by
  induction h with
  | last word => exact words_of_isWord (hws word List.mem_cons_self)
  | @cons word gap text ws hgap hblank rest ih =>
    have hword : IsWord word := hws word List.mem_cons_self
    have htext : words text = ws := ih fun w hw => hws w (List.mem_cons_of_mem word hw)
    cases gap with
    | nil => exact absurd rfl hgap
    | cons c gap =>
      have hkept : word.isEmpty = false := by simpa using hword.1
      have hgap : words (gap ++ text) = words text :=
        words_append_of_blank (fun d hd => hblank d (List.mem_cons_of_mem c hd)) text
      rw [List.append_assoc, List.cons_append, words,
        pieces_append_cons hword.2 (hblank c List.mem_cons_self), List.filter_cons, hkept]
      exact congrArg (word :: ·) (hgap.trans htext)

/-- A text of words neither begins nor ends with blank space. -/
theorem isTrimmed_of_spaced {ws : List (List Char)} (h : Spaced ws cs)
    (hws : ∀ w ∈ ws, IsWord w) : cs ≠ [] ∧ IsTrimmed cs := by
  induction h with
  | last word => exact ⟨(hws word List.mem_cons_self).1, (hws word List.mem_cons_self).isTrimmed⟩
  | @cons word gap text ws hgap hblank rest ih =>
    have hword : IsWord word := hws word List.mem_cons_self
    obtain ⟨hne, -, hlast⟩ := ih fun w hw => hws w (List.mem_cons_of_mem word hw)
    refine ⟨by simp [hne], ?_, ?_⟩
    · rw [List.append_assoc, List.head?_append_of_ne_nil _ hword.1]
      exact hword.isTrimmed.1
    · rw [List.getLast?_append_of_ne_nil _ hne]
      exact hlast

/-! ## Letters of either case -/

variable {name typed : String}

theorem isAlpha_iff :
    c.isAlpha = true ↔ (65 ≤ c.toNat ∧ c.toNat ≤ 90) ∨ (97 ≤ c.toNat ∧ c.toNat ≤ 122) := by
  have hupper : c.isUpper = true ↔ 65 ≤ c.toNat ∧ c.toNat ≤ 90 := decide_eq_true_iff
  have hlower : c.isLower = true ↔ 97 ≤ c.toNat ∧ c.toNat ≤ 122 :=
    (Bool.and_eq_true _ _).to_iff.trans (and_congr decide_eq_true_iff decide_eq_true_iff)
  exact (Bool.or_eq_true _ _).to_iff.trans (or_congr hupper hlower)

theorem toLower_cases (c : Char) :
    c.toLower = c ∨ (65 ≤ c.toNat ∧ c.toNat ≤ 90 ∧ c.toLower.toNat = c.toNat + 32) := by
  by_cases h : c.val ≥ 'A'.val ∧ c.val ≤ 'Z'.val
  · right
    have hlow : 65 ≤ c.val.toNat := UInt32.le_iff_toNat_le.mp h.1
    have hhigh : c.val.toNat ≤ 90 := UInt32.le_iff_toNat_le.mp h.2
    have hlower : c.toLower.toNat = (c.val + ('a'.val - 'A'.val)).toNat :=
      congrArg Char.toNat (dif_pos h)
    refine ⟨hlow, hhigh, ?_⟩
    rw [hlower, UInt32.toNat_add]
    have hshift : ('a'.val - 'A'.val).toNat = 32 := by decide
    have hsum : c.val.toNat + 32 < 2 ^ 32 := by omega
    rw [hshift, Nat.mod_eq_of_lt hsum]
    rfl
  · exact .inl (dif_neg h)

theorem toLower_eq_self (h : 97 ≤ c.toNat) : c.toLower = c := by
  rcases toLower_cases c with heq | ⟨-, hhigh, -⟩
  · exact heq
  · omega

theorem lowercaseAfter_of_ascii (h : ∀ c ∈ cs, c.toNat < 128) (before : List Char) :
    lowercaseAfter before cs = cs.map Char.toLower := by
  induction cs generalizing before with
  | nil => rfl
  | cons c cs ih =>
    have hc : c.toNat < 128 := h c List.mem_cons_self
    have hsigma : c.toNat ≠ 0x3A3 := by omega
    rw [lowercaseAfter, if_neg hsigma, lowercaseChar, if_pos hc,
      ih (fun d hd => h d (List.mem_cons_of_mem c hd))]
    rfl

/-- A name in letters from a to z. -/
def IsName (name : String) : Prop :=
  name ≠ "" ∧ ∀ c ∈ name.toList, 97 ≤ c.toNat ∧ c.toNat ≤ 122

theorem all_iff_isName (name : String) :
    (name != "" && name.toList.all fun c => 97 ≤ c.toNat && c.toNat ≤ 122) = true ↔
      IsName name := by
  simp [IsName]

instance (name : String) : Decidable (IsName name) := decidable_of_iff _ (all_iff_isName name)

/-- In whatever case a name is typed, it is typed in letters. -/
theorem isLetter_of_sameAsciiLetters (hname : IsName name)
    (h : sameAsciiLetters name typed = true) (hc : c ∈ typed.toList) :
    (65 ≤ c.toNat ∧ c.toNat ≤ 90) ∨ (97 ≤ c.toNat ∧ c.toNat ≤ 122) := by
  have hlower : name.toList.map Char.toLower = typed.toList.map Char.toLower := eq_of_beq h
  have hmem : c.toLower ∈ name.toList.map Char.toLower := hlower ▸ List.mem_map_of_mem hc
  obtain ⟨d, hd, heq⟩ := List.mem_map.mp hmem
  rw [toLower_eq_self (hname.2 d hd).1] at heq
  have hletter := hname.2 d hd
  rcases toLower_cases c with hself | ⟨hlow, hhigh, -⟩
  · rw [heq, hself] at hletter
    exact .inr hletter
  · exact .inl ⟨hlow, hhigh⟩

theorem isWord_of_sameAsciiLetters (hname : IsName name)
    (h : sameAsciiLetters name typed = true) : IsWord typed.toList := by
  constructor
  · intro hempty
    have hlower : name.toList.map Char.toLower = typed.toList.map Char.toLower := eq_of_beq h
    rw [hempty, List.map_nil, List.map_eq_nil_iff, String.toList_eq_nil_iff] at hlower
    exact hname.1 hlower
  · intro c hc
    have hletter := isLetter_of_sameAsciiLetters hname h hc
    simp only [isBlank, Bool.or_eq_false_iff, Bool.and_eq_false_iff, decide_eq_false_iff_not,
      beq_eq_false_iff_ne]
    omega

/-- In whatever case a name is typed, its lowercase is the name. -/
theorem lowercase_of_sameAsciiLetters (hname : IsName name)
    (h : sameAsciiLetters name typed = true) : lowercase typed = name := by
  have hlower : name.toList.map Char.toLower = typed.toList.map Char.toLower := eq_of_beq h
  have hself : name.toList.map Char.toLower = name.toList := by
    rw [List.map_congr_left fun c hc => toLower_eq_self (hname.2 c hc).1]
    exact List.map_id _
  have hascii : ∀ c ∈ typed.toList, c.toNat < 128 := by
    intro c hc
    have hletter := isLetter_of_sameAsciiLetters hname h hc
    omega
  apply String.toList_inj.mp
  rw [lowercase, String.toList_ofList, lowercased, lowercaseAfter_of_ascii hascii, ← hlower, hself]

/-! ## Plain beginnings of a lowercase text -/

/-- An ASCII character that is the lowercase of ASCII characters only: the Kelvin sign and the
dotted capital I have lowercase characters in ASCII as well. -/
def IsPlain (a : Char) : Prop := 0 < a.toNat ∧ a.toNat < 0x80 ∧ a ≠ 'i' ∧ a ≠ 'k'

instance (a : Char) : Decidable (IsPlain a) := inferInstanceAs (Decidable (_ ∧ _))

/-- The run of the capitals of ASCII, and the Kelvin sign, are all that leads into ASCII. -/
theorem lowercaseRuns_cases : ∀ run ∈ lowercaseRuns,
    run.2.1 < 0x80 ∨ run = (0x212a, 0x212a, 1, -8383) ∨ 0x80 ≤ run.1 + run.2.2.2 := by
  decide +kernel

theorem toNat_ofNat_cases (n : Nat) : (Char.ofNat n).toNat = n ∨ (Char.ofNat n).toNat = 0 := by
  by_cases h : n.isValidChar
  · exact .inl (by rw [Char.ofNat, dif_pos h]; rfl)
  · exact .inr (by rw [Char.ofNat, dif_neg h]; rfl)

/-- The lowercase of a character outside ASCII does not begin with a plain character. -/
theorem lowercaseChar_of_not_ascii {a : Char} (ha : IsPlain a) (hc : ¬ c.toNat < 0x80) :
    ∃ d ds, lowercaseChar c = d :: ds ∧ d ≠ a := by
  obtain ⟨hzero, hascii, hi, hk⟩ := ha
  simp only [lowercaseChar, hc, if_false]
  split
  · exact ⟨'i', _, rfl, hi.symm⟩
  · split
    · next first last step distance hrun =>
      refine ⟨_, _, rfl, ?_⟩
      have hin := List.find?_some hrun
      simp only [Bool.and_eq_true, decide_eq_true_eq] at hin
      rcases lowercaseRuns_cases _ (List.mem_of_find?_eq_some hrun) with hlow | hkelvin | hhigh
      · dsimp only at hlow
        omega
      · obtain ⟨rfl, rfl, rfl, rfl⟩ :
            first = 0x212a ∧ last = 0x212a ∧ step = 1 ∧ distance = -8383 := by
          simpa using hkelvin
        have hvalue : c.toNat = 0x212a := by omega
        rw [hvalue]
        exact hk.symm
      · dsimp only at hhigh
        rintro rfl
        rcases toNat_ofNat_cases (c.toNat + distance).toNat with h | h <;> omega
    · refine ⟨c, [], rfl, ?_⟩
      rintro rfl
      omega

theorem lowercaseAfter_of_not_ascii {a : Char} (ha : IsPlain a) (hc : ¬ c.toNat < 0x80)
    (before cs : List Char) : ∃ d ds, lowercaseAfter before (c :: cs) = d :: ds ∧ d ≠ a := by
  rw [lowercaseAfter]
  split
  · have hascii := ha.2.1
    split
    · refine ⟨'ς', _, rfl, ?_⟩
      rintro rfl
      exact absurd hascii (by decide)
    · refine ⟨'σ', _, rfl, ?_⟩
      rintro rfl
      exact absurd hascii (by decide)
  · obtain ⟨d, ds, hlower, hd⟩ := lowercaseChar_of_not_ascii ha hc
    exact ⟨d, ds ++ lowercaseAfter (c :: before) cs, by rw [hlower, List.cons_append], hd⟩

/-- A plain text begins the lowercase of another exactly if this begins with it but for the case of
ASCII letters. -/
theorem prefix_lowercaseAfter_iff {text : List Char} (h : ∀ a ∈ text, IsPlain a)
    (before cs : List Char) :
    text <+: lowercaseAfter before cs ↔ text <+: cs.map Char.toLower := by
  induction text generalizing before cs with
  | nil => simp
  | cons a text ih =>
    obtain ⟨ha, htext⟩ := List.forall_mem_cons.mp h
    cases cs with
    | nil => rfl
    | cons c cs =>
      rw [List.map_cons, List.cons_prefix_cons, ← ih htext (c :: before)]
      by_cases hc : c.toNat < 0x80
      · have hsigma : c.toNat ≠ 0x3A3 := by omega
        rw [lowercaseAfter, if_neg hsigma, lowercaseChar, if_pos hc]
        exact List.cons_prefix_cons
      · have hself : c.toLower = c := toLower_eq_self (by omega)
        have hne : a ≠ c := by
          rintro rfl
          exact hc ha.2.1
        obtain ⟨d, ds, hlower, hd⟩ := lowercaseAfter_of_not_ascii ha hc before cs
        rw [hlower, hself, List.cons_prefix_cons]
        exact iff_of_false (fun h => hd h.1.symm) fun h => hne h.1

/-! ## Numerals -/

theorem ofDigits_toDigits (n : Nat) : ofDigits (Nat.toDigits 10 n) = n :=
  Nat.ofDigitChars_ten_toDigits

theorem isAsciiDigit_of_mem_toDigits {n : Nat} (h : c ∈ Nat.toDigits 10 n) :
    isAsciiDigit c = true := by
  have hdigit : c.isDigit = true := Nat.isDigit_of_mem_toDigits (by decide) (by decide) h
  obtain ⟨hlow, hhigh⟩ := Char.isDigit_iff_toNat.mp hdigit
  simp only [isAsciiDigit, Bool.and_eq_true, decide_eq_true_eq]
  exact ⟨hlow, hhigh⟩

theorem isBlank_of_isAsciiDigit (h : isAsciiDigit c = true) : isBlank c = false := by
  simp only [isAsciiDigit, Bool.and_eq_true, decide_eq_true_eq, Char.le_def,
    UInt32.le_iff_toNat_le] at h
  have hlow : 48 ≤ c.toNat := h.1
  have hhigh : c.toNat ≤ 57 := h.2
  simp only [isBlank, Bool.or_eq_false_iff, Bool.and_eq_false_iff, decide_eq_false_iff_not,
    beq_eq_false_iff_ne]
  omega

theorem isDecimalDigit_of_isAsciiDigit (h : isAsciiDigit c = true) : isDecimalDigit c = true := by
  simp only [isAsciiDigit, Bool.and_eq_true, decide_eq_true_eq, Char.le_def,
    UInt32.le_iff_toNat_le] at h
  have hlow : 0x30 ≤ c.toNat := h.1
  have hhigh : c.toNat ≤ 0x30 + 9 := h.2
  rw [isDecimalDigit, List.any_eq_true]
  exact ⟨0x30, List.mem_cons_self, by simp [hlow, hhigh]⟩

/-- No digit is a sign. -/
theorem toDigits_eq_cons (n : Nat) : ∃ d ds, Nat.toDigits 10 n = d :: ds ∧ d ≠ '-' ∧ d ≠ '+' := by
  cases hdigits : Nat.toDigits 10 n with
  | nil => exact absurd hdigits Nat.toDigits_ne_nil
  | cons d ds =>
    have hdigit : isAsciiDigit d = true :=
      isAsciiDigit_of_mem_toDigits (n := n) (by simp [hdigits])
    refine ⟨d, ds, rfl, ?_, ?_⟩ <;> rintro rfl <;> simp [isAsciiDigit] at hdigit

/-- Only zero is written with a zero in front. -/
theorem head?_toDigits_ne_zero {n : Nat} (h : 0 < n) :
    (Nat.toDigits 10 n).head? ≠ some '0' := by
  induction n using Nat.strongRecOn with
  | ind n ih =>
    by_cases hn : n < 10
    · rw [Nat.toDigits_of_lt_base hn]
      intro hzero
      have hvalue := Nat.toNat_digitChar_sub_48_of_lt_ten hn
      rw [Option.some.inj hzero] at hvalue
      have hn' : 0 = n := hvalue
      omega
    · rw [Nat.toDigits_of_base_le (by decide) (by omega),
        List.head?_append]
      cases hhead : (Nat.toDigits 10 (n / 10)).head? with
      | none => exact absurd (List.head?_eq_none_iff.mp hhead) Nat.toDigits_ne_nil
      | some c =>
        rw [← hhead]
        have hrest := ih (n / 10) (by omega) (by omega)
        simpa [hhead] using hrest

theorem toList_toString_int (n : Int) :
    (toString n).toList =
      (if 0 ≤ n then [] else ['-']) ++ Nat.toDigits 10 n.natAbs := by
  rw [Int.toString_eq_repr, Int.repr_eq_if]
  by_cases h : 0 ≤ n
  · have habs : n.toNat = n.natAbs := by omega
    simp [h, habs]
  · have habs : (-n).toNat = n.natAbs := by omega
    simp [h, habs]

theorem readNatural?_toDigits {n limit : Nat} (h : n ≤ limit) :
    readNatural? limit (Nat.toDigits 10 n) = some n := by
  obtain ⟨d, ds, hdigits, -, hplus⟩ := toDigits_eq_cons n
  have hall : (d :: ds).all isAsciiDigit = true := by
    rw [← hdigits, List.all_eq_true]
    intro c
    exact isAsciiDigit_of_mem_toDigits
  have hvalue : ofDigits (d :: ds) = n := hdigits ▸ ofDigits_toDigits n
  have hsign : ∀ rest, d :: ds ≠ '+' :: rest := fun rest heq => hplus (List.cons.inj heq).1
  rw [hdigits, readNatural?.eq_def]
  split
  · next rest heq => exact absurd heq (hsign rest)
  · simp [hall, hvalue, h]

end Text

end Jukebox
