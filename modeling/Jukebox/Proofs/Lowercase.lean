import Jukebox.Proofs.Text

/-!
# Lowercase in context

Case conversion does not tell the capitals of ASCII from the small letters, neither in a character
nor around it.  Only a capital sigma looks at what surrounds it: it is written as a final one behind
a letter unless a letter follows, be it behind characters that are looked through.  So the lowercase
of the beginning of a text begins the lowercase of the text, unless the beginning ends in such a
sigma and the text goes on with a letter.
-/

namespace Jukebox

namespace Text

variable {c d : Char} {cs ds before before' more : List Char}

/-! ## Letters of either case -/

/-- Two characters with one small letter are one character or letters of ASCII. -/
theorem eq_or_isAlpha (h : c.toLower = d.toLower) :
    c = d ∨ (c.isAlpha = true ∧ d.isAlpha = true) := by
  have hvalue : c.toLower.toNat = d.toLower.toNat := congrArg Char.toNat h
  rcases toLower_cases c with hc | ⟨hc, hc', hlower⟩ <;>
    rcases toLower_cases d with hd | ⟨hd, hd', hlower'⟩
  · exact .inl (hc.symm.trans (h.trans hd))
  · rw [hc, hlower'] at hvalue
    exact .inr ⟨isAlpha_iff.mpr (by omega), isAlpha_iff.mpr (by omega)⟩
  · rw [hlower, hd] at hvalue
    exact .inr ⟨isAlpha_iff.mpr (by omega), isAlpha_iff.mpr (by omega)⟩
  · exact .inr ⟨isAlpha_iff.mpr (by omega), isAlpha_iff.mpr (by omega)⟩

theorem isCased_of_isAlpha (h : c.isAlpha = true) : isCased c = true := by
  rw [isCased, inRanges, List.any_eq_true]
  rcases isAlpha_iff.mp h with ⟨hlow, hhigh⟩ | ⟨hlow, hhigh⟩
  · exact ⟨(0x41, 0x5a), by simp [casedRanges], by simp [hlow, hhigh]⟩
  · exact ⟨(0x61, 0x7a), by simp [casedRanges], by simp [hlow, hhigh]⟩

theorem caseIgnorableRanges_cases : ∀ range ∈ caseIgnorableRanges,
    range.2 < 65 ∨ (90 < range.1 ∧ range.2 < 97) ∨ 122 < range.1 := by
  decide +kernel

theorem isCaseIgnorable_of_isAlpha (h : c.isAlpha = true) : isCaseIgnorable c = false := by
  have hletter := isAlpha_iff.mp h
  rw [isCaseIgnorable, inRanges, List.any_eq_false]
  intro range hrange
  have hcases := caseIgnorableRanges_cases range hrange
  simp only [Bool.and_eq_true, decide_eq_true_eq]
  omega

theorem isCased_congr (h : c.toLower = d.toLower) : isCased c = isCased d := by
  rcases eq_or_isAlpha h with rfl | ⟨hc, hd⟩
  · rfl
  · rw [isCased_of_isAlpha hc, isCased_of_isAlpha hd]

theorem isCaseIgnorable_congr (h : c.toLower = d.toLower) :
    isCaseIgnorable c = isCaseIgnorable d := by
  rcases eq_or_isAlpha h with rfl | ⟨hc, hd⟩
  · rfl
  · rw [isCaseIgnorable_of_isAlpha hc, isCaseIgnorable_of_isAlpha hd]

theorem lowercaseChar_of_isAlpha (h : c.isAlpha = true) : lowercaseChar c = [c.toLower] := by
  have hletter := isAlpha_iff.mp h
  have hascii : c.toNat < 0x80 := by omega
  rw [lowercaseChar, if_pos hascii]

theorem lowercaseChar_congr (h : c.toLower = d.toLower) : lowercaseChar c = lowercaseChar d := by
  rcases eq_or_isAlpha h with rfl | ⟨hc, hd⟩
  · rfl
  · rw [lowercaseChar_of_isAlpha hc, lowercaseChar_of_isAlpha hd, h]

theorem eq_sigma_iff : c.toNat = 0x3A3 ↔ c = 'Σ' := by
  rw [← Char.toNat_inj]
  rfl

theorem eq_sigma_congr (h : c.toLower = d.toLower) : c = 'Σ' ↔ d = 'Σ' := by
  have hsigma : ('Σ').isAlpha = false := by decide +kernel
  rcases eq_or_isAlpha h with rfl | ⟨hc, hd⟩
  · rfl
  · constructor <;> rintro rfl <;> simp [hsigma] at hc hd

/-! ## What stands around -/

@[simp]
theorem reachesCased_nil : reachesCased [] = false := rfl

theorem reachesCased_cons (c : Char) (cs : List Char) :
    reachesCased (c :: cs) = if isCaseIgnorable c then reachesCased cs else isCased c := by
  cases h : isCaseIgnorable c <;> simp [reachesCased, h]

theorem reachesCased_congr (h : cs.map Char.toLower = ds.map Char.toLower) :
    reachesCased cs = reachesCased ds := by
  induction cs generalizing ds with
  | nil => rw [List.map_eq_nil_iff.mp h.symm]
  | cons c cs ih =>
    cases ds with
    | nil => cases h
    | cons d ds =>
      obtain ⟨hhead, htail⟩ := List.cons.inj h
      rw [reachesCased_cons, reachesCased_cons, ih htail, isCased_congr hhead,
        isCaseIgnorable_congr hhead]

/-- Only characters that are looked through open the view on what comes behind. -/
theorem reachesCased_append (cs ds : List Char) :
    reachesCased (cs ++ ds) =
      if cs.all isCaseIgnorable then reachesCased ds else reachesCased cs := by
  induction cs with
  | nil => simp
  | cons c cs ih =>
    rw [List.cons_append, reachesCased_cons, reachesCased_cons, ih]
    cases h : isCaseIgnorable c <;> simp [h]

theorem lowercaseAfter_cons (before : List Char) (c : Char) (cs : List Char) :
    lowercaseAfter before (c :: cs) =
      (if c = 'Σ' then if reachesCased before && !reachesCased cs then ['ς'] else ['σ']
        else lowercaseChar c) ++ lowercaseAfter (c :: before) cs := by
  simp only [lowercaseAfter, eq_sigma_iff]

/-- The lowercase does not depend on the case of ASCII letters, in the text and before it. -/
theorem lowercaseAfter_congr (h : cs.map Char.toLower = ds.map Char.toLower)
    (hbefore : before.map Char.toLower = before'.map Char.toLower) :
    lowercaseAfter before cs = lowercaseAfter before' ds := by
  induction cs generalizing ds before before' with
  | nil => rw [List.map_eq_nil_iff.mp h.symm, lowercaseAfter, lowercaseAfter]
  | cons c cs ih =>
    cases ds with
    | nil => cases h
    | cons d ds =>
      obtain ⟨hhead, htail⟩ := List.cons.inj h
      have hnext : (c :: before).map Char.toLower = (d :: before').map Char.toLower := by
        rw [List.map_cons, List.map_cons, hhead, hbefore]
      rw [lowercaseAfter_cons, lowercaseAfter_cons, ih htail hnext, reachesCased_congr htail,
        reachesCased_congr hbefore, lowercaseChar_congr hhead]
      simp only [eq_sigma_congr hhead]

/-! ## Beginnings -/

/-- Behind a letter, and but for characters that are looked through, the text ends in a capital
sigma. -/
def EndsInSigma (before cs : List Char) : Prop :=
  ∃ first last, cs = first ++ 'Σ' :: last ∧ (∀ c ∈ last, isCaseIgnorable c = true) ∧
    reachesCased (first.reverse ++ before) = true

theorem not_endsInSigma_nil (before : List Char) : ¬EndsInSigma before [] := by
  rintro ⟨first, last, hcs, -⟩
  simp at hcs

theorem endsInSigma_cons_iff :
    EndsInSigma before (c :: cs) ↔
      (c = 'Σ' ∧ (∀ d ∈ cs, isCaseIgnorable d = true) ∧ reachesCased before = true) ∨
        EndsInSigma (c :: before) cs := by
  constructor
  · rintro ⟨first, last, hcs, hlast, hfirst⟩
    cases first with
    | nil =>
      obtain ⟨rfl, rfl⟩ := List.cons.inj hcs
      exact .inl ⟨rfl, hlast, hfirst⟩
    | cons c' first =>
      obtain ⟨rfl, rfl⟩ := List.cons.inj hcs
      exact .inr ⟨first, last, rfl, hlast, by simpa using hfirst⟩
  · rintro (⟨rfl, hcs, hbefore⟩ | ⟨first, last, rfl, hlast, hfirst⟩)
    · exact ⟨[], cs, rfl, hcs, hbefore⟩
    · exact ⟨c :: first, last, rfl, hlast, by simpa using hfirst⟩

/-- The lowercase of a beginning begins the lowercase of the text unless a sigma ends the one and
not the other. -/
theorem prefix_lowercaseAfter_append_iff (before cs more : List Char) :
    lowercaseAfter before cs <+: lowercaseAfter before (cs ++ more) ↔
      ¬(EndsInSigma before cs ∧ reachesCased more = true) := by
  induction cs generalizing before with
  | nil => simp [lowercaseAfter, not_endsInSigma_nil]
  | cons c cs ih =>
    rw [List.cons_append, lowercaseAfter_cons, lowercaseAfter_cons, endsInSigma_cons_iff]
    by_cases hc : c = 'Σ'
    · subst hc
      have hother : ('ς' : Char) ≠ 'σ' := by decide
      rw [if_pos rfl, if_pos rfl, reachesCased_append]
      -- The sigma looks past the end of the beginning only through what is looked through.
      rw [← List.all_eq_true]
      by_cases hcs : cs.all isCaseIgnorable = true
      · have hnone : reachesCased cs = false := by
          have happend := reachesCased_append cs []
          rwa [List.append_nil, if_pos hcs, reachesCased_nil] at happend
        rw [if_pos hcs, hnone, hcs]
        cases hbefore : reachesCased before <;> cases hmore : reachesCased more <;>
          simp [hmore, hother, ih]
      · simp [hcs, ih]
    · simp [hc, List.prefix_append_right_inj, ih]

/-- A name is cut behind a sigma that ends the word only because of the cut. -/
def CutsBehindSigma (start more : String) : Prop :=
  EndsInSigma [] start.toList ∧ reachesCased more.toList = true

/-- The lowercase of what is the beginning of a text but for the case of ASCII letters begins the
lowercase of the text unless it is cut behind a sigma. -/
theorem prefix_lowercased_iff {lead start more : String} (h : sameAsciiLetters lead start = true) :
    lowercased lead.toList <+: lowercased (start ++ more).toList ↔ ¬CutsBehindSigma start more := by
  have hlower : lead.toList.map Char.toLower = start.toList.map Char.toLower := eq_of_beq h
  rw [lowercased, lowercased, lowercaseAfter_congr hlower (Eq.refl ([].map Char.toLower)),
    String.toList_append, prefix_lowercaseAfter_append_iff]
  rfl

end Text

end Jukebox
