import Mathlib.Data.List.TakeDrop
import Jukebox.Json.Printer
import Jukebox.Json.Reader
import Jukebox.Proofs.Text

/-!
# What is written as JSON is read back

The scanner finds in a printed value exactly its tokens, and the reader puts these together to the
value again.  So reading inverts the layout of one field a line on every value, however deep it is
(`Json.read?_pretty`).
-/

namespace Jukebox.Json

variable {c : Char} {cs rest : List Char} {done : List Token}

/-! ## Numerals -/

/-- A row of digits ends where something else follows. -/
theorem digitRun?_append (hcs : ∀ c ∈ cs, Text.isAsciiDigit c = true) (hne : cs ≠ [])
    (hrest : ∀ c ∈ rest.head?, Text.isAsciiDigit c = false) :
    digitRun? (cs ++ rest) = some (cs, rest) := by
  have hspan : (cs ++ rest).span Text.isAsciiDigit = (cs, rest) := by
    rw [List.span_eq_takeWhile_dropWhile, List.takeWhile_append_of_pos hcs,
      List.dropWhile_append_of_pos hcs]
    cases rest with
    | nil => simp
    | cons c rest => simp [hrest c rfl]
  unfold digitRun?
  rw [hspan]
  cases cs with
  | nil => exact absurd rfl hne
  | cons => rfl

/-- The digits of a number are read as a whole number, with what follows them. -/
theorem digitRun?_toDigits (n : Nat) (hrest : ∀ c ∈ rest.head?, Text.isAsciiDigit c = false) :
    digitRun? (Nat.toDigits 10 n ++ rest) = some (Nat.toDigits 10 n, rest) ∧
      ((Nat.toDigits 10 n).head? == some '0' && (Nat.toDigits 10 n).length != 1) = false := by
  refine ⟨digitRun?_append (fun c => Text.isAsciiDigit_of_mem_toDigits) Nat.toDigits_ne_nil hrest, ?_⟩
  rcases Nat.eq_zero_or_pos n with rfl | hpos
  · rfl
  · simp [Text.head?_toDigits_ne_zero hpos]

/-- A number is its sign and its digits, and then what follows them. -/
theorem readNumber?_signed (negative : Bool) (n : Nat)
    (hrest : ∀ c ∈ rest.head?, Text.isAsciiDigit c = false) (hpoint : rest.head? ≠ some '.') :
    readNumber? ((if negative then ['-'] else []) ++ (Nat.toDigits 10 n ++ rest)) =
      if rest = [] then
        if negative && n == 0 then some (.decimal ⟨true, 0, 0⟩)
        else some (.integer (if negative then -(n : Int) else n))
      else (readExponent? rest).map fun exponent => .decimal ⟨negative, n, exponent⟩ := by
  obtain ⟨hrun, hzero⟩ := digitRun?_toDigits n hrest
  obtain ⟨d, ds, hdigits, hminus, -⟩ := Text.toDigits_eq_cons n
  have hvalue := Text.ofDigits_toDigits n
  rw [hdigits] at hrun hzero hvalue ⊢
  have hfirst : d = '0' → ds = [] := by simpa using hzero
  cases rest with
  | nil =>
    rw [List.append_nil] at hrun ⊢
    cases negative <;> simp [readNumber?, hminus, hrun, hvalue] <;> grind
  | cons c cs =>
    have hc : c ≠ '.' := by simpa using hpoint
    rw [List.cons_append] at hrun ⊢
    cases hexponent : readExponent? (c :: cs) <;> cases negative <;>
      simp [readNumber?, hminus, hrun, hvalue, hc, hexponent] <;> grind

theorem readExponent?_toString (n : Int) :
    Decimal.readExponent? (toString n).toList = some n := by
  have hall : (Nat.toDigits 10 n.natAbs).all Text.isAsciiDigit = true :=
    List.all_eq_true.mpr fun c => Text.isAsciiDigit_of_mem_toDigits
  obtain ⟨d, ds, hdigits, hminus, hplus⟩ := Text.toDigits_eq_cons n.natAbs
  have hvalue := Text.ofDigits_toDigits n.natAbs
  rw [Text.toList_toString_int]
  rw [hdigits] at hall hvalue ⊢
  unfold Decimal.readExponent?
  split
  next minus digits hsign =>
    by_cases hn : 0 ≤ n
    · have habs : (n.natAbs : Int) = n := by omega
      obtain ⟨rfl, rfl⟩ : false = minus ∧ d :: ds = digits := by
        simpa [hn, hminus, hplus] using hsign
      rw [hall, hvalue, habs]
      rfl
    · have habs : -(n.natAbs : Int) = n := by omega
      obtain ⟨rfl, rfl⟩ : true = minus ∧ d :: ds = digits := by
        simpa [hn] using hsign
      rw [hall, hvalue, habs]
      rfl

/-- The digits of a decimal number are followed by its exponent. -/
theorem toList_numberText_decimal (d : Decimal) :
    (numberText (.decimal d)).toList =
      (if d.negative then ['-'] else []) ++
        (Nat.toDigits 10 d.digits ++ 'e' :: (toString d.exponent).toList) := by
  cases hnegative : d.negative <;> simp [numberText, hnegative]

theorem readNumber?_numberText (n : Number) : readNumber? (numberText n).toList = some n := by
  cases n with
  | integer n =>
    have hread := @readNumber?_signed [] (decide (n < 0)) n.natAbs (by simp) (by simp)
    have htext : (numberText (.integer n)).toList =
        (if decide (n < 0) then ['-'] else []) ++ (Nat.toDigits 10 n.natAbs ++ []) := by
      rw [numberText, Text.toList_toString_int]
      by_cases hn : 0 ≤ n
      · simp [hn]
      · simp [hn, Int.not_le.mp hn]
    have hsign : (decide (n < 0) && n.natAbs == 0) = false := by
      by_cases hn : n < 0
      · have hne : n.natAbs ≠ 0 := by omega
        rw [beq_eq_false_iff_ne.mpr hne, Bool.and_false]
      · rw [decide_eq_false hn, Bool.false_and]
    have hvalue : (if decide (n < 0) = true then -(n.natAbs : Int) else n.natAbs) = n := by
      by_cases hn : n < 0
      · rw [if_pos (decide_eq_true hn)]
        omega
      · rw [if_neg (by simpa using hn)]
        omega
    rw [htext, hread, if_pos rfl, hsign, hvalue, if_neg Bool.false_ne_true]
  | decimal d =>
    rw [toList_numberText_decimal,
      readNumber?_signed d.negative d.digits (by simp [Text.isAsciiDigit]) (by simp)]
    simp only [readExponent?, readExponent?_toString, reduceCtorEq, if_false, Option.map_some]

/-! ## The tokens of a printed value -/

mutual

/-- The tokens of a value. -/
def tokens : Value → List Token
  | .null => [.atom .null]
  | .flag b => [.atom (.flag b)]
  | .number n => [.atom (.number n)]
  | .text s => [.text s]
  | .unreadable => [.unreadable]
  | .array items => .openArray :: itemTokens items ++ [.closeArray]
  | .object fields => .openObject :: fieldTokens fields ++ [.closeObject]

/-- The tokens of items, with commas between them. -/
def itemTokens : List Value → List Token
  | [] => []
  | [v] => tokens v
  | v :: w :: rest => tokens v ++ .comma :: itemTokens (w :: rest)

/-- The tokens of fields, with commas between them. -/
def fieldTokens : List (String × Value) → List Token
  | [] => []
  | [(name, v)] => .text name :: .colon :: tokens v
  | (name, v) :: f :: rest => .text name :: .colon :: tokens v ++ .comma :: fieldTokens (f :: rest)

end

/-- A number or a word ends here: at the end of the text, or at a character that stands for
itself or for nothing. -/
def EndsBare (rest : List Char) : Prop :=
  ∀ c ∈ rest.head?, isBare c = false ∧ (isSpace c = true ∨ (punctuation? c).isSome)

theorem scanFrom_space (h : isSpace c = true) :
    scanFrom done .between (c :: cs) = scanFrom done .between cs := by
  rw [scanFrom, if_pos h]

theorem scanFrom_newLine (level : Nat) (cs : List Char) :
    scanFrom done .between ((newLine level).toList ++ cs) = scanFrom done .between cs := by
  have hspaces : ∀ n, scanFrom done .between (List.replicate n ' ' ++ cs) =
      scanFrom done .between cs := by
    intro n
    induction n with
    | zero => rfl
    | succ n ih =>
      rw [List.replicate_succ, List.cons_append, scanFrom_space (by decide)]
      exact ih
  have htext : (newLine level).toList = '\n' :: List.replicate (2 * level) ' ' := by
    simp [newLine]
  rw [htext, List.cons_append, scanFrom_space (by decide)]
  exact hspaces _

theorem scanFrom_punctuation {token : Token} (h : punctuation? c = some token) :
    scanFrom done .between (c :: cs) = scanFrom (token :: done) .between cs := by
  have hother : isSpace c = false ∧ (c == '"') = false := by
    unfold punctuation? at h
    split at h <;> first | exact ⟨by decide, by decide⟩ | cases h
  rw [scanFrom, hother.1, hother.2, h]
  rfl

theorem endsBare_newLine (level : Nat) (cs : List Char) :
    EndsBare ((newLine level).toList ++ cs) := by
  intro c hc
  have hline : c = '\n' := by simpa [newLine, eq_comm] using hc
  subst hline
  decide

theorem endsBare_comma (cs : List Char) : EndsBare (',' :: cs) := by
  intro c hc
  obtain rfl : ',' = c := Option.some.inj hc
  decide

/-! ### Strings -/

theorem not_surrogate (c : Char) :
    isHighSurrogate c.toNat = false ∧ isLowSurrogate c.toNat = false := by
  have hvalid : c.toNat < 0xD800 ∨ 0xDFFF < c.toNat ∧ c.toNat < 0x110000 := c.valid
  simp only [isHighSurrogate, isLowSurrogate, Bool.and_eq_false_iff, decide_eq_false_iff_not]
  omega

/-- Characters are read as they are. -/
theorem paired?_map_toNat (cs : List Char) : paired? (cs.map Char.toNat) = some cs := by
  induction cs with
  | nil => rfl
  | cons c cs ih =>
    obtain ⟨hhigh, hlow⟩ := not_surrogate c
    unfold paired?
    simp only [List.map_cons, hhigh, hlow, ih, Bool.false_eq_true, if_false, Option.map_some,
      Char.ofNat_toNat]

/-- A character that is written inside a string is read there. -/
theorem scanFrom_escaped (read : List Nat) (c : Char) (cs : List Char) :
    scanFrom done (.inText read) (escaped c ++ cs) =
      scanFrom done (.inText (c.toNat :: read)) cs := by
  have hhex : ∀ n < 32, hexQuad? '0' '0' (hexDigit (n / 16)) (hexDigit (n % 16)) = some n := by
    decide
  unfold escaped
  split_ifs with hquote hslash hline hreturn htab hback hfeed hcontrol
  · rw [eq_of_beq hquote]
    simp [scanFrom, shortEscape?]
  · rw [eq_of_beq hslash]
    simp [scanFrom, shortEscape?]
  · rw [eq_of_beq hline]
    simp [scanFrom, shortEscape?]
  · rw [eq_of_beq hreturn]
    simp [scanFrom, shortEscape?]
  · rw [eq_of_beq htab]
    simp [scanFrom, shortEscape?]
  · rw [eq_of_beq hback]
    simp [scanFrom, shortEscape?]
  · rw [eq_of_beq hfeed]
    simp [scanFrom, shortEscape?]
  · simp [scanFrom, hhex c.toNat hcontrol]
  · have hplain : (c == '\\' || decide (c.toNat < 0x20)) = false := by simp [hslash, hcontrol]
    rw [List.singleton_append, scanFrom, hplain]
    · rfl
    · simpa using hquote
    · rintro _ _ _ _ _ rfl
      simp at hslash
    · rintro _ _ rfl
      simp at hslash

theorem scanFrom_quoted (s : String) (cs : List Char) :
    scanFrom done .between ((quoted s).toList ++ cs) = scanFrom (.text s :: done) .between cs := by
  have hbody : ∀ (written : List Char) (read : List Nat),
      scanFrom done (.inText read) (written.flatMap escaped ++ '"' :: cs) =
        scanFrom (textToken (read.reverse ++ written.map Char.toNat) :: done) .between cs := by
    intro written
    induction written with
    | nil =>
      intro read
      rw [List.flatMap_nil, List.nil_append, List.map_nil, List.append_nil, scanFrom]
    | cons c written ih =>
      intro read
      rw [List.flatMap_cons, List.append_assoc, scanFrom_escaped, ih]
      simp
  have htext : (quoted s).toList ++ cs = '"' :: (s.toList.flatMap escaped ++ '"' :: cs) := by
    simp [quoted]
  have htoken : textToken (s.toList.map Char.toNat) = .text s := by
    simp [textToken, paired?_map_toNat]
  rw [htext, scanFrom, if_neg (by decide), if_pos (by decide), hbody, List.reverse_nil,
    List.nil_append, htoken]

theorem scanFrom_halfPair (cs : List Char) :
    scanFrom done .between (halfPair.toList ++ cs) =
      scanFrom (.unreadable :: done) .between cs := by
  have htext : halfPair.toList = ['"', '\\', 'u', 'd', '8', '0', '0', '"'] := by decide
  have hquad : hexQuad? 'd' '8' '0' '0' = some 0xD800 := by decide
  have htoken : textToken [0xD800] = .unreadable := rfl
  simp only [htext, List.cons_append, List.nil_append]
  rw [scanFrom, if_neg (by decide), if_pos (by decide), scanFrom, hquad]
  dsimp only
  rw [scanFrom, List.reverse_singleton, htoken]

/-! ### Numbers and words -/

/-- What a number or a word begins with begins nothing else. -/
theorem isBare_apart (h : isBare c = true) :
    isSpace c = false ∧ (c == '"') = false ∧ punctuation? c = none := by
  refine ⟨?_, ?_, ?_⟩
  · by_contra hspace
    simp only [isSpace, Bool.not_eq_false, Bool.or_eq_true, beq_iff_eq] at hspace
    obtain ((rfl | rfl) | rfl) | rfl := hspace <;> simp [isBare] at h
  · by_contra hquote
    rw [Bool.not_eq_false, beq_iff_eq] at hquote
    subst hquote
    simp [isBare] at h
  · unfold punctuation?
    split <;> first | rfl | simp [isBare] at h

/-- A number or a word is read to its end. -/
theorem scanFrom_bare {v : Value} (hcs : ∀ c ∈ cs, isBare c = true) (hne : cs ≠ [])
    (hread : readAtom? cs = some v) (hrest : EndsBare rest) :
    scanFrom done .between (cs ++ rest) = scanFrom (.atom v :: done) .between rest := by
  have hend : ∀ read : List Char, readAtom? read.reverse = some v →
      scanFrom done (.inBare read) rest = scanFrom (.atom v :: done) .between rest := by
    intro read hread
    cases rest with
    | nil => simp [scanFrom, hread]
    | cons c rest =>
      obtain ⟨hbare, hnext⟩ := hrest c rfl
      by_cases hspace : isSpace c = true
      · rw [scanFrom_space hspace, scanFrom, hbare]
        simp [hread, hspace]
      · obtain ⟨token, htoken⟩ := Option.isSome_iff_exists.mp (hnext.resolve_left hspace)
        rw [scanFrom_punctuation htoken, scanFrom, hbare]
        simp [hread, hspace, htoken]
  have hrun : ∀ cs read : List Char, (∀ c ∈ cs, isBare c = true) →
      scanFrom done (.inBare read) (cs ++ rest) =
        scanFrom done (.inBare (cs.reverse ++ read)) rest := by
    intro cs
    induction cs with
    | nil => intro read _; rfl
    | cons c cs ih =>
      intro read hcs
      rw [List.cons_append, scanFrom, if_pos (hcs c List.mem_cons_self),
        ih _ fun c hc => hcs c (List.mem_cons_of_mem _ hc)]
      simp
  cases cs with
  | nil => exact absurd rfl hne
  | cons c cs =>
    have hfirst := hcs c List.mem_cons_self
    obtain ⟨hspace, hquote, hpunctuation⟩ := isBare_apart hfirst
    rw [List.cons_append, scanFrom, hspace, hquote, hpunctuation]
    simp only [Bool.false_eq_true, if_false, hfirst, if_true]
    rw [hrun cs [c] fun c hc => hcs c (List.mem_cons_of_mem _ hc)]
    exact hend _ (by simpa using hread)

theorem isBare_of_isAsciiDigit (h : Text.isAsciiDigit c = true) : isBare c = true := by
  have hdigit : ('0' ≤ c && c ≤ '9') = true := h
  simp [isBare, hdigit]

theorem isBare_of_mem_toString {n : Int} (h : c ∈ (toString n).toList) : isBare c = true := by
  rw [Text.toList_toString_int, List.mem_append] at h
  rcases h with h | h
  · split_ifs at h
    · cases h
    · rw [List.mem_singleton.mp h]
      decide
  · exact isBare_of_isAsciiDigit (Text.isAsciiDigit_of_mem_toDigits h)

theorem isBare_of_mem_numberText {n : Number} (h : c ∈ (numberText n).toList) :
    isBare c = true := by
  cases n with
  | integer n => exact isBare_of_mem_toString h
  | decimal d =>
    rw [toList_numberText_decimal, List.mem_append, List.mem_append, List.mem_cons] at h
    rcases h with h | h | rfl | h
    · split_ifs at h
      · rw [List.mem_singleton.mp h]
        decide
      · cases h
    · exact isBare_of_isAsciiDigit (Text.isAsciiDigit_of_mem_toDigits h)
    · decide
    · exact isBare_of_mem_toString h

theorem readAtom?_numberText (n : Number) :
    readAtom? (numberText n).toList = some (.number n) := by
  have hread := readNumber?_numberText n
  unfold readAtom?
  split_ifs with hnull htrue hfalse
  · rw [eq_of_beq hnull] at hread
    cases hread
  · rw [eq_of_beq htrue] at hread
    cases hread
  · rw [eq_of_beq hfalse] at hread
    cases hread
  · rw [hread]
    rfl

theorem scanFrom_numberText (n : Number) (hrest : EndsBare rest) :
    scanFrom done .between ((numberText n).toList ++ rest) =
      scanFrom (.atom (.number n) :: done) .between rest := by
  have hread := readAtom?_numberText n
  refine scanFrom_bare (fun c hc => isBare_of_mem_numberText hc) ?_ hread hrest
  intro hnil
  rw [hnil] at hread
  cases hread

/-! ### Values -/

theorem scanFrom_openArray (cs : List Char) :
    scanFrom done .between ('[' :: cs) = scanFrom (.openArray :: done) .between cs :=
  scanFrom_punctuation rfl

theorem scanFrom_closeArray (cs : List Char) :
    scanFrom done .between (']' :: cs) = scanFrom (.closeArray :: done) .between cs :=
  scanFrom_punctuation rfl

theorem scanFrom_openObject (cs : List Char) :
    scanFrom done .between ('\x7b' :: cs) = scanFrom (.openObject :: done) .between cs :=
  scanFrom_punctuation rfl

theorem scanFrom_closeObject (cs : List Char) :
    scanFrom done .between ('\x7d' :: cs) = scanFrom (.closeObject :: done) .between cs :=
  scanFrom_punctuation rfl

theorem scanFrom_comma (cs : List Char) :
    scanFrom done .between (',' :: cs) = scanFrom (.comma :: done) .between cs :=
  scanFrom_punctuation rfl

/-- A field's name, and what stands between it and its value. -/
theorem scanFrom_name (name : String) (cs : List Char) :
    scanFrom done .between ((quoted name).toList ++ ':' :: ' ' :: cs) =
      scanFrom (.colon :: .text name :: done) .between cs := by
  have hcolon : scanFrom (.text name :: done) .between (':' :: ' ' :: cs) =
      scanFrom (.colon :: .text name :: done) .between (' ' :: cs) := scanFrom_punctuation rfl
  rw [scanFrom_quoted, hcolon, scanFrom_space (by decide)]

mutual

/-- In a printed value the scanner finds its tokens. -/
theorem scanFrom_prettyAt (level : Nat) (v : Value) (done : List Token) (rest : List Char)
    (hrest : EndsBare rest) :
    scanFrom done .between ((prettyAt level v).toList ++ rest) =
      scanFrom ((tokens v).reverse ++ done) .between rest := by
  match v with
  | .null =>
    have hbare : ∀ c ∈ "null".toList, isBare c = true := List.all_eq_true.mp (by decide)
    exact @scanFrom_bare "null".toList rest done .null hbare (by decide) rfl hrest
  | .flag true =>
    have hbare : ∀ c ∈ "true".toList, isBare c = true := List.all_eq_true.mp (by decide)
    exact @scanFrom_bare "true".toList rest done (.flag true) hbare (by decide) rfl hrest
  | .flag false =>
    have hbare : ∀ c ∈ "false".toList, isBare c = true := List.all_eq_true.mp (by decide)
    exact @scanFrom_bare "false".toList rest done (.flag false) hbare (by decide) rfl hrest
  | .number n => exact scanFrom_numberText n hrest
  | .text s => exact scanFrom_quoted s rest
  | .unreadable => exact scanFrom_halfPair rest
  | .array [] =>
    have htext : (prettyAt level (.array [])).toList ++ rest = '[' :: ']' :: rest := by
      simp [prettyAt]
    rw [htext, scanFrom_openArray, scanFrom_closeArray]
    rfl
  | .array (v :: items) =>
    have htext : (prettyAt level (.array (v :: items))).toList ++ rest =
        '[' :: ((prettyItems (level + 1) (v :: items)).toList ++
          ((newLine level).toList ++ ']' :: rest)) := by
      simp [prettyAt]
    rw [htext, scanFrom_openArray,
      scanFrom_prettyItems (level + 1) (v :: items) _ _ (endsBare_newLine level _),
      scanFrom_newLine, scanFrom_closeArray]
    simp [tokens]
  | .object [] =>
    have htext : (prettyAt level (.object [])).toList ++ rest = '\x7b' :: '\x7d' :: rest := by
      simp [prettyAt]
    rw [htext, scanFrom_openObject, scanFrom_closeObject]
    rfl
  | .object (f :: fields) =>
    have htext : (prettyAt level (.object (f :: fields))).toList ++ rest =
        '\x7b' :: ((prettyFields (level + 1) (f :: fields)).toList ++
          ((newLine level).toList ++ '\x7d' :: rest)) := by
      simp [prettyAt]
    rw [htext, scanFrom_openObject,
      scanFrom_prettyFields (level + 1) (f :: fields) _ _ (endsBare_newLine level _),
      scanFrom_newLine, scanFrom_closeObject]
    simp [tokens]

theorem scanFrom_prettyItems (level : Nat) (items : List Value) (done : List Token)
    (rest : List Char) (hrest : EndsBare rest) :
    scanFrom done .between ((prettyItems level items).toList ++ rest) =
      scanFrom ((itemTokens items).reverse ++ done) .between rest := by
  match items with
  | [] => rfl
  | [v] =>
    have htext : (prettyItems level [v]).toList ++ rest =
        (newLine level).toList ++ ((prettyAt level v).toList ++ rest) := by
      simp [prettyItems]
    rw [htext, scanFrom_newLine, scanFrom_prettyAt level v _ _ hrest]
    rfl
  | v :: w :: items =>
    have htext : (prettyItems level (v :: w :: items)).toList ++ rest =
        (newLine level).toList ++ ((prettyAt level v).toList ++
          ',' :: ((prettyItems level (w :: items)).toList ++ rest)) := by
      simp [prettyItems]
    rw [htext, scanFrom_newLine, scanFrom_prettyAt level v _ _ (endsBare_comma _), scanFrom_comma,
      scanFrom_prettyItems level (w :: items) _ _ hrest]
    simp [itemTokens]

theorem scanFrom_prettyFields (level : Nat) (fields : List (String × Value)) (done : List Token)
    (rest : List Char) (hrest : EndsBare rest) :
    scanFrom done .between ((prettyFields level fields).toList ++ rest) =
      scanFrom ((fieldTokens fields).reverse ++ done) .between rest := by
  match fields with
  | [] => rfl
  | [(name, v)] =>
    have htext : (prettyFields level [(name, v)]).toList ++ rest =
        (newLine level).toList ++ ((quoted name).toList ++
          ':' :: ' ' :: ((prettyAt level v).toList ++ rest)) := by
      simp [prettyFields]
    rw [htext, scanFrom_newLine, scanFrom_name, scanFrom_prettyAt level v _ _ hrest]
    simp [fieldTokens]
  | (name, v) :: f :: fields =>
    have htext : (prettyFields level ((name, v) :: f :: fields)).toList ++ rest =
        (newLine level).toList ++ ((quoted name).toList ++
          ':' :: ' ' :: ((prettyAt level v).toList ++
            ',' :: ((prettyFields level (f :: fields)).toList ++ rest))) := by
      simp [prettyFields]
    rw [htext, scanFrom_newLine, scanFrom_name,
      scanFrom_prettyAt level v _ _ (endsBare_comma _), scanFrom_comma,
      scanFrom_prettyFields level (f :: fields) _ _ hrest]
    simp [fieldTokens]

end

/-! ## The value of the tokens -/

theorem itemTokens_cons (v : Value) (items : List Value) :
    ∃ more, itemTokens (v :: items) = tokens v ++ more := by
  cases items with
  | nil => exact ⟨[], by simp [itemTokens]⟩
  | cons w items => exact ⟨_, rfl⟩

/-- The first item of an array is read as any other: no value begins with the array's end. -/
theorem assemble_firstItem (v : Value) (items : List Value) (stack : List Open)
    (rest : List Token) :
    assemble .firstItem stack (itemTokens (v :: items) ++ rest) =
      assemble .value (.array [] :: stack) (itemTokens (v :: items) ++ rest) := by
  obtain ⟨more, hmore⟩ := itemTokens_cons v items
  rw [hmore]
  cases v <;> rfl

/-- The first field of an object is read as any other. -/
theorem assemble_firstName (f : String × Value) (fields : List (String × Value))
    (stack : List Open) (rest : List Token) :
    assemble .firstName stack (fieldTokens (f :: fields) ++ rest) =
      assemble (.name (some [])) stack (fieldTokens (f :: fields) ++ rest) := by
  cases fields <;> rfl

mutual

/-- Where a value may stand its tokens are put together to it. -/
theorem assemble_tokens (v : Value) (stack : List Open) (rest : List Token) :
    assemble .value stack (tokens v ++ rest) = assemble (.next v) stack rest := by
  match v with
  | .null => rfl
  | .flag b => rfl
  | .number n => rfl
  | .text s => rfl
  | .unreadable => rfl
  | .array [] => rfl
  | .array (v :: items) =>
    calc assemble .value stack (tokens (.array (v :: items)) ++ rest)
        = assemble .firstItem stack (itemTokens (v :: items) ++ .closeArray :: rest) := by
          simp [tokens, assemble, accept]
      _ = assemble .value (.array [] :: stack) (itemTokens (v :: items) ++ .closeArray :: rest) :=
          assemble_firstItem v items stack _
      _ = assemble (.next (.array (v :: items))) stack rest :=
          assemble_itemTokens (v :: items) [] stack rest (List.cons_ne_nil _ _)
  | .object [] => rfl
  | .object (f :: fields) =>
    calc assemble .value stack (tokens (.object (f :: fields)) ++ rest)
        = assemble .firstName stack (fieldTokens (f :: fields) ++ .closeObject :: rest) := by
          simp [tokens, assemble, accept]
      _ = assemble (.name (some [])) stack (fieldTokens (f :: fields) ++ .closeObject :: rest) :=
          assemble_firstName f fields stack _
      _ = assemble (.next (.object (f :: fields))) stack rest :=
          assemble_fieldTokens (f :: fields) [] stack rest (List.cons_ne_nil _ _)

/-- The items of an open array are put behind those it has. -/
theorem assemble_itemTokens (items read : List Value) (stack : List Open) (rest : List Token)
    (hitems : items ≠ []) :
    assemble .value (.array read :: stack) (itemTokens items ++ .closeArray :: rest) =
      assemble (.next (.array (read.reverse ++ items))) stack rest := by
  match items with
  | [] => exact absurd rfl hitems
  | [v] =>
    rw [itemTokens, assemble_tokens v]
    simp [assemble, accept]
  | v :: w :: items =>
    rw [itemTokens, List.append_assoc, assemble_tokens v, List.cons_append]
    have hnext := assemble_itemTokens (w :: items) (v :: read) stack rest (List.cons_ne_nil _ _)
    simpa [assemble, accept] using hnext

/-- The fields of an open object are put behind those it has. -/
theorem assemble_fieldTokens (fields read : List (String × Value)) (stack : List Open)
    (rest : List Token) (hfields : fields ≠ []) :
    assemble (.name (some read)) stack (fieldTokens fields ++ .closeObject :: rest) =
      assemble (.next (.object (read.reverse ++ fields))) stack rest := by
  match fields with
  | [] => exact absurd rfl hfields
  | [(name, v)] =>
    have hvalue := assemble_tokens v (.object (some read) (some name) :: stack)
      (.closeObject :: rest)
    simpa [fieldTokens, assemble, accept, Token.name?, Fields.add, Fields.toObject] using hvalue
  | (name, v) :: f :: fields =>
    have hvalue := assemble_tokens v (.object (some read) (some name) :: stack)
      (.comma :: (fieldTokens (f :: fields) ++ .closeObject :: rest))
    have hnext := assemble_fieldTokens (f :: fields) ((name, v) :: read) stack rest
      (List.cons_ne_nil _ _)
    simpa [fieldTokens, assemble, accept, Token.name?, Fields.add, hnext] using hvalue

end

/-- Reading what was printed gives the value again. -/
theorem read?_pretty (v : Value) : read? (pretty v) = some v := by
  have hscan := scanFrom_prettyAt 0 v [] [] (by simp [EndsBare])
  have hassemble := assemble_tokens v [] []
  rw [List.append_nil] at hscan hassemble
  rw [read?, pretty, scan, hscan]
  simpa [scanFrom, assemble] using hassemble

end Jukebox.Json
