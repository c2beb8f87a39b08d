import Jukebox.Proofs.Text
import Jukebox.Yaml.Writer

/-!
# Scalars as they are written in YAML

A word of safe characters is read as it stands, up to a colon or to the end of its line; an integer
is such a word and is read back from its digits; and a text in double quotes is read back from its
escapes.
-/

namespace Jukebox.Yaml

variable {c d : Char} {cs rest tail read : List Char} {p : Position} {indent : Int}

/-! ## Positions -/

@[simp]
theorem Position.right_right (p : Position) (m n : Nat) :
    (p.right m).right n = p.right (m + n) := by
  simp [Position.right, Nat.add_assoc]

@[simp]
theorem Position.right_zero (p : Position) : p.right 0 = p := rfl

@[simp]
theorem Position.column_right (p : Position) (n : Nat) : (p.right n).column = p.column + n := rfl

@[simp]
theorem Position.column_down (p : Position) : p.down.column = 0 := rfl

/-! ## Words -/

theorem ne_of_isSafe (h : isSafe c = true) (hd : isSafe d = false) : c ≠ d := by
  rintro rfl
  rw [h] at hd
  cases hd

theorem isGap_of_isSafe (h : isSafe c = true) : isGap c = false := by
  simp [isGap, ne_of_isSafe h (d := ' ') (by decide), ne_of_isSafe h (d := '\t') (by decide)]

/-- A word of safe characters, and no dash alone. -/
def IsPlainWord (cs : List Char) : Prop :=
  (∀ c ∈ cs, isSafe c = true) ∧ cs ≠ [] ∧ cs ≠ ['-']

instance (cs : List Char) : Decidable (IsPlainWord cs) :=
  @instDecidableAnd _ _ (List.decidableBAll _ cs) inferInstance

/-- Of the safe characters only the dash may be an indicator. -/
theorem isIndicator_of_isSafe (h : isSafe c = true) (hdash : c ≠ '-') : isIndicator c = false := by
  have hno {d : Char} (hd : isSafe d = false) : (c == d) = false :=
    beq_eq_false_iff_ne.mpr (ne_of_isSafe h hd)
  rw [isIndicator, Bool.or_eq_false_iff]
  constructor
  · rw [isFlowMark, hno (by decide), hno (by decide), hno (by decide), hno (by decide),
      hno (by decide)]
    rfl
  · rw [List.contains_eq_any_beq, List.any_eq_false]
    intro d hd
    by_cases heq : d = '-'
    · simpa [heq] using hdash
    · have hspecial : ['-', '?', ':', '\t', '#', '&', '*', '!', '|', '>', '\'', '"', '%', '@',
          Char.ofNat 0x60].all (fun d => d == '-' || !isSafe d) = true := by decide
      have hd : isSafe d = false := by simpa [heq] using List.all_eq_true.mp hspecial d hd
      simp [hno hd]

/-- A name begins with a letter, a slash or a quote. -/
def BeginsName (c : Char) : Prop := c.isAlpha = true ∨ c = '/' ∨ c = '"'

theorem BeginsName.ne (h : BeginsName c) (hd : d.isAlpha = false) (hslash : d ≠ '/')
    (hquote : d ≠ '"') : c ≠ d := by
  rintro rfl
  rcases h with h | h | h
  · rw [h] at hd
    cases hd
  · exact hslash h
  · exact hquote h

theorem BeginsName.isSafe_or (h : BeginsName c) : isSafe c = true ∨ c = '"' := by
  rcases h with h | rfl | rfl
  · simp [isSafe, Char.isAlphanum, h]
  · exact .inl rfl
  · exact .inr rfl

theorem BeginsName.isGap (h : BeginsName c) : isGap c = false := by
  simp [Yaml.isGap, h.ne (d := ' ') (by decide) (by decide) (by decide),
    h.ne (d := '\t') (by decide) (by decide) (by decide)]

theorem BeginsName.not_isDocumentMark (h : BeginsName c) (cs : List Char) :
    isDocumentMark (c :: cs) = false := by
  have hdash := h.ne (d := '-') (by decide) (by decide) (by decide)
  have hdot := h.ne (d := '.') (by decide) (by decide) (by decide)
  unfold isDocumentMark
  split
  · next heq => exact absurd (List.cons.inj heq).1 hdash
  · next heq => exact absurd (List.cons.inj heq).1 hdot
  · rfl

/-! ## Texts -/

/-- A text is written as it stands, a word of safe characters, or in double quotes. -/
theorem scalarText_cases (text : String) :
    (isPlainText text = true ∧ (scalarText text).toList = text.toList ∧
        ∃ c cs, text.toList = c :: cs ∧ (c.isAlpha = true ∨ c = '/') ∧
          ∀ d ∈ c :: cs, isSafe d = true) ∨
      isPlainText text = false ∧
        (scalarText text).toList = '"' :: (text.toList.flatMap quotedChar ++ ['"']) := by
  cases hplain : isPlainText text with
  | true =>
    refine .inl ⟨rfl, by rw [scalarText, if_pos hplain], ?_⟩
    unfold isPlainText at hplain
    cases htext : text.toList with
    | nil => simp [htext] at hplain
    | cons c cs =>
      simp only [htext, Bool.and_eq_true, Bool.or_eq_true, beq_iff_eq, List.all_eq_true] at hplain
      obtain ⟨⟨hc, hcs⟩, -⟩ := hplain
      refine ⟨c, cs, rfl, hc, List.forall_mem_cons.mpr ⟨?_, hcs⟩⟩
      rcases hc with hc | rfl
      · simp [isSafe, Char.isAlphanum, hc]
      · rfl
  | false => exact .inr ⟨rfl, by simp [scalarText, hplain]⟩

theorem beginsName_of_scalarText (text : String) :
    ∃ c cs, (scalarText text).toList = c :: cs ∧ BeginsName c := by
  rcases scalarText_cases text with ⟨-, htext, c, cs, hcs, hc, -⟩ | ⟨-, htext⟩
  · exact ⟨c, cs, htext.trans hcs, hc.elim .inl fun h => .inr (.inl h)⟩
  · exact ⟨'"', _, htext, .inr (.inr rfl)⟩

/-! ## Plain scalars -/

theorem scanPlain_cons (indent : Int) (s : Scalar) (fresh : Bool) (c : Char) (cs : List Char) :
    scanPlain false indent s fresh (c :: cs) =
      if isGap c then
        if s.pending.isLeading && s.position.column < indent && c == '\t' then none
        else scanPlain false indent (s.skip c) true cs
      else if c == '\n' then scanPlain false indent (s.skip c) true cs
      else if fresh && ((s.position.column : Int) < indent || c == '#'
          || (s.position.column == 0 && isDocumentMark (c :: cs))) then some (s, c :: cs)
      else if c == ':' && endsWord cs then some (s, c :: cs)
      else scanPlain false indent (s.push c 1) false cs := by
  rw [scanPlain.eq_def]
  simp

/-- Safe characters belong to the scalar. -/
theorem scanPlain_append (hcs : ∀ c ∈ cs, isSafe c = true) (indent : Int) (read : List Char)
    (p : Position) (rest : List Char) :
    scanPlain false indent ⟨read, .spaces [], p⟩ false (cs ++ rest) =
      scanPlain false indent ⟨cs.reverse ++ read, .spaces [], p.right cs.length⟩ false rest := by
  induction cs generalizing read p with
  | nil => rfl
  | cons c cs ih =>
    obtain ⟨hc, hcs⟩ := List.forall_mem_cons.mp hcs
    have hgap := isGap_of_isSafe hc
    have hline : c ≠ '\n' := ne_of_isSafe hc (by decide)
    have hcolon : c ≠ ':' := ne_of_isSafe hc (by decide)
    rw [List.cons_append, scanPlain_cons]
    simp only [hgap, hline, Bool.false_eq_true, if_false, Bool.false_and, beq_iff_eq,
      beq_eq_false_iff_ne.mpr hcolon]
    rw [Scalar.push, ih hcs]
    simp [Pending.settle, Nat.add_comm]

theorem scanPlain_colon (h : endsWord rest = true) (indent : Int) (s : Scalar) :
    scanPlain false indent s false (':' :: rest) = some (s, ':' :: rest) := by
  have hgap : isGap ':' = false := by decide
  rw [scanPlain_cons]
  simp [hgap, h]

theorem scanPlain_breaks (htail : ∀ c ∈ tail.head?, BeginsName c) {k : Nat}
    (hk : tail ≠ [] → ((p.column + k : Nat) : Int) < indent) (read : List Char) :
    scanPlain false indent ⟨read, .breaks 1, p⟩ true (List.replicate k ' ' ++ tail) =
      some (⟨read, .breaks 1, p.right k⟩, tail) := by
  induction k generalizing p with
  | zero =>
    cases tail with
    | nil => rfl
    | cons c tail =>
      have hc : BeginsName c := htail c rfl
      have hline : c ≠ '\n' := hc.ne (by decide) (by decide) (by decide)
      have hcolumn : (p.column : Int) < indent := hk (List.cons_ne_nil _ _)
      rw [List.replicate_zero, List.nil_append, scanPlain_cons]
      simp [hc.isGap, hline, hcolumn]
  | succ k ih =>
    have hspace : isGap ' ' = true := by decide
    have hrest := @ih (p.right 1) (by simpa [Nat.add_assoc, Nat.add_comm 1 k] using hk)
    rw [Position.right_right, Nat.add_comm 1 k] at hrest
    rw [List.replicate_succ, List.cons_append, scanPlain_cons]
    simpa [hspace, Scalar.skip, Pending.gap] using hrest

/-- At the end of a line the scalar ends where a name begins that is not indented further, or where
the text ends. -/
theorem scanPlain_newLine (htail : ∀ c ∈ tail.head?, BeginsName c) {k : Nat}
    (hk : tail ≠ [] → (k : Int) < indent) (read : List Char) (p : Position) :
    scanPlain false indent ⟨read, .spaces [], p⟩ false
        ('\n' :: (List.replicate k ' ' ++ tail)) =
      some (⟨read, .breaks 1, p.down.right k⟩, tail) := by
  have hgap : isGap '\n' = false := by decide
  have hrest := @scanPlain_breaks tail p.down indent htail k (by simpa using hk) read
  rw [scanPlain_cons]
  simpa [hgap, Scalar.skip, Pending.newLine] using hrest

/-! ## Numbers -/

theorem isSafe_of_isAsciiDigit (h : Text.isAsciiDigit c = true) : isSafe c = true := by
  have hdigit : c.isDigit = true := by
    simp only [Text.isAsciiDigit, Bool.and_eq_true, decide_eq_true_eq] at h
    exact Char.isDigit_iff_toNat.mpr h
  simp [isSafe, Char.isAlphanum, hdigit]

theorem isPlainWord_toString (n : Int) : IsPlainWord (toString n).toList := by
  obtain ⟨d, ds, hdigits, hminus, -⟩ := Text.toDigits_eq_cons n.natAbs
  rw [Text.toList_toString_int]
  refine ⟨?_, ?_, ?_⟩
  · intro c hc
    rw [List.mem_append] at hc
    rcases hc with hc | hc
    · split_ifs at hc
      · cases hc
      · obtain rfl := List.mem_singleton.mp hc
        decide
    · exact isSafe_of_isAsciiDigit (Text.isAsciiDigit_of_mem_toDigits hc)
  · simp [hdigits]
  · split_ifs <;> simp [hdigits, hminus]

theorem mapM_hexDigit? (h : ∀ c ∈ cs, Text.isAsciiDigit c = true) :
    cs.mapM hexDigit? = some (cs.map Text.digitValue) := by
  induction cs with
  | nil => rfl
  | cons c cs ih =>
    rw [List.forall_mem_cons] at h
    have hc : hexDigit? c = some (Text.digitValue c) := if_pos h.1
    simp [List.mapM_cons, hc, ih h.2]

theorem digitValue_lt (h : Text.isAsciiDigit c = true) : Text.digitValue c < 10 := by
  simp only [Text.isAsciiDigit, Bool.and_eq_true, decide_eq_true_eq, Char.le_def,
    UInt32.le_iff_toNat_le] at h
  have hhigh : c.toNat ≤ 57 := h.2
  rw [Text.digitValue]
  omega

/-- The digits of a number stand for it. -/
theorem readDigits?_toDigits (n : Nat) : readDigits? 10 (Nat.toDigits 10 n) = some n := by
  have hdigits : ∀ c ∈ Nat.toDigits 10 n, Text.isAsciiDigit c = true :=
    fun c => Text.isAsciiDigit_of_mem_toDigits
  have hsmall : ∀ c ∈ Nat.toDigits 10 n, Text.digitValue c < 10 :=
    fun c hc => digitValue_lt (hdigits c hc)
  have hvalue : ((Nat.toDigits 10 n).map Text.digitValue).foldl (fun n d => 10 * n + d) 0 = n := by
    rw [List.foldl_map]
    exact Text.ofDigits_toDigits n
  rw [readDigits?, mapM_hexDigit? hdigits]
  simpa [hvalue, Nat.toDigits_ne_nil] using hsmall

theorem hasLeadingZero_toDigits (n : Nat) : hasLeadingZero (Nat.toDigits 10 n) = false := by
  rcases Nat.eq_zero_or_pos n with rfl | hpos
  · rfl
  · have hzero := Text.head?_toDigits_ne_zero hpos
    obtain ⟨d, ds, hdigits, hminus, hplus⟩ := Text.toDigits_eq_cons n
    rw [hdigits] at hzero ⊢
    have hd : d ≠ '0' := by simpa using hzero
    simp [hasLeadingZero, hminus, hplus, hd]

theorem readMagnitude?_toDigits (n : Nat) : readMagnitude? (Nat.toDigits 10 n) = some n := by
  have hread : readMagnitude? (Nat.toDigits 10 n) =
      if hasLeadingZero (Nat.toDigits 10 n) then none else readDigits? 10 (Nat.toDigits 10 n) := by
    have hdigits : ∀ c ∈ Nat.toDigits 10 n, Text.isAsciiDigit c = true :=
      fun c => Text.isAsciiDigit_of_mem_toDigits
    unfold readMagnitude?
    split
    · next heq => rw [heq] at hdigits; exact absurd (hdigits 'x' (by simp)) (by decide)
    · next heq => rw [heq] at hdigits; exact absurd (hdigits 'o' (by simp)) (by decide)
    · next heq => rw [heq] at hdigits; exact absurd (hdigits 'b' (by simp)) (by decide)
    · rfl
  rw [hread, hasLeadingZero_toDigits, if_neg Bool.false_ne_true, readDigits?_toDigits]

/-- An integer of 64 bits that is written is read back. -/
theorem readInteger?_toString {n : Int} (hlow : -(Text.signedBound : Int) ≤ n)
    (hhigh : n ≤ Text.maxWord) : readInteger? (toString n).toList = some n := by
  have hread := readMagnitude?_toDigits n.natAbs
  obtain ⟨d, ds, hdigits, hminus, hplus⟩ := Text.toDigits_eq_cons n.natAbs
  rw [Text.toList_toString_int]
  split_ifs with hsign
  · have habs : (n.natAbs : Int) = n := Int.natAbs_of_nonneg hsign
    have hbound : n.natAbs ≤ Text.maxWord := by omega
    rw [hdigits] at hread
    rw [List.nil_append, hdigits]
    simp [readInteger?, hminus, hplus, hread, readInteger?.bounded, hbound, habs]
  · have habs : -(n.natAbs : Int) = n := by omega
    have hbound : n.natAbs ≤ Text.signedBound := by omega
    have hsigned : readInteger? ('-' :: Nat.toDigits 10 n.natAbs) =
        (readMagnitude? (Nat.toDigits 10 n.natAbs)).bind fun n =>
          if n ≤ Text.signedBound then some (-(n : Int)) else none := rfl
    rw [List.singleton_append, hsigned, hread, Option.bind_some, if_pos hbound, habs]

/-! ## Scalars in double quotes -/

theorem hexDigit?_hexDigit : ∀ n < 16, hexDigit? (hexDigit n) = some n := by
  decide

theorem hexChar?_pair (h : c.toNat < 0x100) :
    hexChar? [hexDigit (c.toNat / 16), hexDigit (c.toNat % 16)] = some c := by
  have hhigh := hexDigit?_hexDigit (c.toNat / 16) (by omega)
  have hlow := hexDigit?_hexDigit (c.toNat % 16) (by omega)
  have hvalue : 16 * (c.toNat / 16) + c.toNat % 16 = c.toNat := Nat.div_add_mod _ _
  have hvalid : c.toNat.isValidChar := c.valid
  simp [hexChar?, hhigh, hlow, hvalue, hvalid]

theorem hexChar?_quadruple (h : c.toNat < 0x10000) :
    hexChar? [hexDigit (c.toNat / 4096), hexDigit (c.toNat / 256 % 16),
      hexDigit (c.toNat / 16 % 16), hexDigit (c.toNat % 16)] = some c := by
  have h₁ := hexDigit?_hexDigit (c.toNat / 4096) (by omega)
  have h₂ := hexDigit?_hexDigit (c.toNat / 256 % 16) (by omega)
  have h₃ := hexDigit?_hexDigit (c.toNat / 16 % 16) (by omega)
  have h₄ := hexDigit?_hexDigit (c.toNat % 16) (by omega)
  have hvalue : 16 * (16 * (16 * (c.toNat / 4096) + c.toNat / 256 % 16) + c.toNat / 16 % 16) +
      c.toNat % 16 = c.toNat := by omega
  have hvalid : c.toNat.isValidChar := c.valid
  simp [hexChar?, h₁, h₂, h₃, h₄, hvalue, hvalid]

/-- What is not printable has four hexadecimal digits. -/
theorem lt_of_not_isPrintable (h : isPrintable c = false) : c.toNat < 0x10000 := by
  simp only [isPrintable, Bool.or_eq_false_iff, decide_eq_false_iff_not] at h
  omega

/-- What behind a backslash stands for a character. -/
inductive Escapes (c : Char) : List Char → Prop
  | letter {d : Char} (h : escape? d = some c) : Escapes c [d]
  | byte {a b : Char} (h : hexChar? [a, b] = some c) : Escapes c ['x', a, b]
  | word {a b d e : Char} (h : hexChar? [a, b, d, e] = some c) : Escapes c ['u', a, b, d, e]

/-- A character is written with a backslash, or it is printable and stands for itself. -/
theorem quotedChar_cases (c : Char) :
    (∃ digits, quotedChar c = '\\' :: digits ∧ Escapes c digits) ∨
      quotedChar c = [c] ∧ isPrintable c = true ∧ c.toNat ≠ 0x85 ∧ c ≠ '"' ∧ c ≠ '\\' ∧
        c ≠ '\n' ∧ c ≠ '\t' := by
  by_cases hquote : c = '"'
  · subst hquote
    exact .inl ⟨['"'], rfl, .letter rfl⟩
  by_cases hbackslash : c = '\\'
  · subst hbackslash
    exact .inl ⟨['\\'], rfl, .letter rfl⟩
  by_cases hline : c = '\n'
  · subst hline
    exact .inl ⟨['n'], rfl, .letter rfl⟩
  by_cases htab : c = '\t'
  · subst htab
    exact .inl ⟨['t'], rfl, .letter rfl⟩
  by_cases hnext : c.toNat = 0x85
  · have hc : c = '\u0085' := Char.toNat_inj.mp hnext
    subst hc
    exact .inl ⟨['N'], rfl, .letter rfl⟩
  cases hprintable : isPrintable c with
  | true =>
    refine .inr ⟨?_, rfl, hnext, hquote, hbackslash, hline, htab⟩
    simp [quotedChar, hquote, hbackslash, hline, htab, hnext, hprintable]
  | false =>
    left
    by_cases hbyte : c.toNat < 0x100
    · refine ⟨_, ?_, .byte (hexChar?_pair hbyte)⟩
      simp [quotedChar, hquote, hbackslash, hline, htab, hnext, hprintable, hbyte]
    · refine ⟨_, ?_, .word (hexChar?_quadruple (lt_of_not_isPrintable hprintable))⟩
      simp [quotedChar, hquote, hbackslash, hline, htab, hnext, hprintable, hbyte]

theorem scanQuoted_escape (hcolumn : p.column ≠ 0) {digits : List Char} (h : Escapes c digits)
    (blanks read rest : List Char) :
    scanQuoted true ⟨read, .spaces blanks, p⟩ ('\\' :: (digits ++ rest)) =
      scanQuoted true ⟨c :: (blanks ++ read), .spaces [], p.right (digits.length + 1)⟩ rest := by
  have hgap : isGap '\\' = false := by decide
  rw [scanQuoted.eq_def]
  cases h with
  | @letter d hd =>
    -- A letter that stands for a character asks for no digits and ends no line.
    have hline : d ≠ '\n' := by
      rintro rfl
      cases hd
    have hx : d ≠ 'x' := by
      rintro rfl
      cases hd
    have hu : d ≠ 'u' := by
      rintro rfl
      cases hd
    have hU : d ≠ 'U' := by
      rintro rfl
      cases hd
    simp [hcolumn, hgap, hd, hx, hu, hU, Scalar.push, Pending.settle]
  | byte hd => simp [hcolumn, hgap, hd, Scalar.push, Pending.settle]
  | word hd => simp [hcolumn, hgap, hd, Scalar.push, Pending.settle]

/-- A character as it is written is read back, whatever blank space stands before it. -/
theorem scanQuoted_quotedChar (c : Char) (hcolumn : p.column ≠ 0) (blanks read rest : List Char) :
    ∃ blanks' read', blanks' ++ read' = c :: (blanks ++ read) ∧
      scanQuoted true ⟨read, .spaces blanks, p⟩ (quotedChar c ++ rest) =
        scanQuoted true ⟨read', .spaces blanks', p.right (quotedChar c).length⟩ rest := by
  rcases quotedChar_cases c with
    ⟨digits, hquoted, h⟩ | ⟨hquoted, -, -, hquote, hbackslash, hline, htab⟩
  · refine ⟨[], c :: (blanks ++ read), rfl, ?_⟩
    rw [hquoted, List.cons_append, scanQuoted_escape hcolumn h, List.length_cons]
  · rw [hquoted, List.singleton_append, List.length_singleton, scanQuoted.eq_def]
    by_cases hspace : c = ' '
    · subst hspace
      have hgap : isGap ' ' = true := by decide
      exact ⟨' ' :: blanks, read, rfl, by simp [hcolumn, hgap, Scalar.skip, Pending.gap]⟩
    · have hgap : isGap c = false := by simp [isGap, hspace, htab]
      exact ⟨[], c :: (blanks ++ read), rfl, by
        simp [hcolumn, hgap, hline, hquote, hbackslash, Scalar.push, Pending.settle]⟩

/-- A text in double quotes is read back. -/
theorem scanQuoted_flatMap (hcolumn : p.column ≠ 0) (blanks read rest : List Char) :
    scanQuoted true ⟨read, .spaces blanks, p⟩ (cs.flatMap quotedChar ++ '"' :: rest) =
      some (⟨cs.reverse ++ (blanks ++ read), .spaces [],
        p.right ((cs.flatMap quotedChar).length + 1)⟩, rest) := by
  induction cs generalizing p blanks read with
  | nil =>
    have hgap : isGap '"' = false := by decide
    rw [List.flatMap_nil, List.nil_append, scanQuoted.eq_def]
    simp [hcolumn, hgap, Pending.settle]
  | cons c cs ih =>
    obtain ⟨blanks', read', hcontent, hscan⟩ :=
      scanQuoted_quotedChar c hcolumn blanks read (cs.flatMap quotedChar ++ '"' :: rest)
    rw [List.flatMap_cons, List.append_assoc, hscan, ih (by simp; omega), hcontent]
    simp [Nat.add_assoc]

end Jukebox.Yaml
