import Jukebox.Proofs.Yaml.Scanning

/-!
# What is written as YAML is read back

A document is scanned line by line into the tokens of its record, and the tokens are put together to
its node, so a record is read from its document as it was written (`Yaml.Node.read?_document`).
-/

namespace Jukebox.Yaml

variable {c d : Char} {cs cs' cs'' rest tail more : List Char} {s s' s'' : Scanner} {p : Position}
  {indents : List Int} {column : Nat} {allowed : Bool} {tokens result : List Token}

/-! ## The tokens of settings -/

mutual

/-- The tokens of what stands behind a colon. -/
def tokensOf : Setting → List Token
  | .number n => [.scalar (toString n) true]
  | .single x => [.scalar (singleText x) true]
  | .flag b => [.scalar (if b then "true" else "false") true]
  | .text s => [.scalar s (isPlainText s)]
  | .record [] => [.openMapping, .closeMapping]
  | .record ((name, value) :: rest) =>
    .firstKey :: .scalar name (isPlainText name) :: .value ::
      (tokensOf value ++ (fieldTokens rest ++ [.blockEnd]))

/-- The tokens of fields behind the first one. -/
def fieldTokens : List (String × Setting) → List Token
  | [] => []
  | (name, value) :: rest =>
    .key :: .scalar name (isPlainText name) :: .value :: (tokensOf value ++ fieldTokens rest)

end

mutual

/-- What is written can be read: names are short, and numbers with a point are written as words. -/
def Legible : Setting → Prop
  | .single x => IsPlainWord (singleText x).toList
  | .number _ | .flag _ | .text _ => True
  | .record fields => FieldsLegible fields

/-- The names of fields are short, and what they hold is legible. -/
def FieldsLegible : List (String × Setting) → Prop
  | [] => True
  | (name, value) :: rest =>
    (scalarText name).length ≤ 1024 ∧ Legible value ∧ FieldsLegible rest

end

theorem fieldsLegible_iff {fields : List (String × Setting)} :
    FieldsLegible fields ↔ (∀ name ∈ fields.map Prod.fst, (scalarText name).length ≤ 1024) ∧
      ∀ value ∈ fields.map Prod.snd, Legible value := by
  induction fields with
  | nil => simp [FieldsLegible]
  | cons field rest ih =>
    obtain ⟨name, value⟩ := field
    rw [FieldsLegible, ih, List.map_cons, List.map_cons, List.forall_mem_cons, List.forall_mem_cons]
    constructor
    · rintro ⟨hname, hvalue, hnames, hvalues⟩
      exact ⟨⟨hname, hnames⟩, hvalue, hvalues⟩
    · rintro ⟨⟨hname, hnames⟩, hvalue, hvalues⟩
      exact ⟨hname, hvalue, hnames, hvalues⟩

namespace Scanner

theorem headD_opened (h : indents.headD (-1) ≤ column) :
    (opened column indents).headD (-1) = column := by
  unfold opened
  split
  · rfl
  · omega

theorem opened_of_headD (h : indents.headD (-1) = column) : opened column indents = indents := by
  simp only [opened, h, Int.lt_irrefl, if_false]

theorem keyToken_of_headD (h : indents.headD (-1) = column) : keyToken column indents = .key := by
  simp only [keyToken, h, Int.lt_irrefl, if_false]

/-- Blocks that are indented further than a name end before it. -/
theorem AtLine.ended {indent : Int} (h : s.AtLine column (indent :: indents) tokens)
    (hindent : column < indent) : s.AtLine column indents (tokens ++ [.blockEnd]) :=
  ⟨h.keyAllowed, h.keys, h.stands, h.blocks.trans (closed_cons hindent _ _)⟩

theorem endsWord_settingText (level : Nat) (setting : Setting) (cs : List Char) :
    endsWord ((settingText level setting).toList ++ cs) = true := by
  cases setting with
  | flag b => cases b <;> simp [settingText, endsWord, isGap]
  | record fields => cases fields <;> simp [settingText, endsWord, isGap]
  | _ => simp [settingText, endsWord, isGap]

/-- The text of fields behind the indentation of the first one, and what follows. -/
def fieldsTail (level : Nat) (name : String) (value : Setting) (rest : List (String × Setting))
    (more : List Char) : List Char :=
  (scalarText name).toList ++ ':' :: ((settingText level value).toList ++
    ((fieldsText level rest).toList ++ more))

theorem beginsName_fieldsTail (level : Nat) (name : String) (value : Setting)
    (rest : List (String × Setting)) (more : List Char) :
    ∀ c ∈ (fieldsTail level name value rest more).head?, BeginsName c := by
  obtain ⟨c, cs, hname, hc⟩ := beginsName_of_scalarText name
  simpa [fieldsTail, hname] using hc

theorem toList_fieldsText (level : Nat) (name : String) (value : Setting)
    (rest : List (String × Setting)) (more : List Char) :
    (fieldsText level ((name, value) :: rest)).toList ++ more =
      List.replicate (2 * level) ' ' ++ fieldsTail level name value rest more := by
  simp [fieldsText, indentation, fieldsTail]

/-- What is written behind a colon at a level is read, up to the next name. -/
def ReadsValue (setting : Setting) : Prop :=
  ∀ (level : Nat) (p : Position) (indents : List Int) (tokens result : List Token)
    (tail : List Char) (k : Nat), indents.headD (-1) = (2 * level : Nat) → 2 * level < p.column →
    (∀ c ∈ tail.head?, BeginsName c) → k ≤ 2 * level →
    (∀ s : Scanner, s.AtLine k indents (tokens ++ tokensOf setting) → s.Scans tail result) →
    Scans ⟨p, indents, false, [none], tokens.toArray⟩
      ((settingText level setting).toList ++ (List.replicate k ' ' ++ tail)) result

/-- What is written of fields at a level is read, up to the next name. -/
def ReadsFields : List (String × Setting) → Prop
  | [] => True
  | (name, value) :: rest =>
    ∀ (level : Nat) (s : Scanner) (indents : List Int) (tokens result : List Token)
      (tail : List Char) (k : Nat), indents.headD (-1) ≤ (2 * level : Nat) →
      s.AtLine (2 * level) indents tokens → (∀ c ∈ tail.head?, BeginsName c) → k ≤ 2 * level →
      (∀ s' : Scanner, s'.AtLine k (opened (2 * level) indents)
          (tokens ++ keyToken (2 * level) indents :: .scalar name (isPlainText name) :: .value ::
            (tokensOf value ++ fieldTokens rest)) → s'.Scans tail result) →
      s.Scans (fieldsTail level name value rest (List.replicate k ' ' ++ tail)) result

theorem readsValue_word {setting : Setting} {text : String} (hword : IsPlainWord text.toList)
    (htext : ∀ level, settingText level setting = " " ++ text ++ "\n")
    (htokens : tokensOf setting = [.scalar text true]) : ReadsValue setting := by
  intro level p indents tokens result tail k hhead hp htail hk hnext
  have hscans := @scans_word text.toList tail p indents tokens result hword (by omega) htail k
    (by omega) (by simpa [htokens] using hnext)
  simpa [htext] using hscans

theorem readsValue_text (text : String) : ReadsValue (.text text) := by
  rcases scalarText_cases text with ⟨hplain, htext, c, cs, hcs, hc, hsafe⟩ | ⟨hplain, htext⟩
  · have hscalar : scalarText text = text := String.toList_inj.mp htext
    refine @readsValue_word (.text text) text ?_ (fun level => by rw [settingText, hscalar])
      (by rw [tokensOf, hplain])
    rw [hcs]
    refine ⟨hsafe, List.cons_ne_nil _ _, ?_⟩
    rintro heq
    obtain ⟨rfl, -⟩ := List.cons.inj heq
    rcases hc with hc | hc <;> cases hc
  · intro level p indents tokens result tail k hhead hp htail hk hnext
    have hscans := @scans_quoted text.toList tail p indents tokens result (by omega) htail k
      (by simpa [tokensOf, hplain] using hnext)
    simpa [settingText, htext] using hscans

theorem readsValue_empty : ReadsValue (.record []) := by
  intro level p indents tokens result tail k hhead hp htail hk hnext
  have hscans := @scans_empty tail p indents tokens result (by omega) htail k
    (by simpa [tokensOf] using hnext)
  simpa [settingText] using hscans

theorem readsValue_record {name : String} {value : Setting} {rest : List (String × Setting)}
    (h : ReadsFields ((name, value) :: rest)) : ReadsValue (.record ((name, value) :: rest)) := by
  intro level p indents tokens result tail k hhead hp htail hk hnext
  have hinner : indents.headD (-1) < (2 * (level + 1) : Nat) := by omega
  have htext : (settingText level (.record ((name, value) :: rest))).toList ++
      (List.replicate k ' ' ++ tail) = '\n' :: (List.replicate (2 * (level + 1)) ' ' ++
        fieldsTail (level + 1) name value rest (List.replicate k ' ' ++ tail)) := by
    simp [settingText, toList_fieldsText]
  rw [htext]
  refine .newLine (beginsName_fieldsTail _ _ _ _ _) (fun s hs => ?_) p
  refine h (level + 1) s indents tokens result tail k (by omega) hs htail (by omega) ?_
  intro s' hs'
  rw [opened, if_pos hinner, keyToken, if_pos hinner] at hs'
  have hended := hs'.ended (by omega)
  exact hnext s' (by simpa [tokensOf] using hended)

theorem readsFields_cons {name : String} {value : Setting} {rest : List (String × Setting)}
    (hname : (scalarText name).length ≤ 1024) (hvalue : ReadsValue value)
    (hrest : ReadsFields rest) : ReadsFields ((name, value) :: rest) := by
  intro level s indents tokens result tail k hopen hs htail hk hnext
  have hhead := headD_opened hopen
  refine hs.scans_name hopen hname (endsWord_settingText _ _ _) fun q hq => ?_
  cases rest with
  | nil =>
    refine hvalue level q _ _ result tail k hhead hq htail hk fun s' hs' => hnext s' ?_
    simpa [fieldTokens] using hs'
  | cons field rest =>
    obtain ⟨name', value'⟩ := field
    rw [toList_fieldsText]
    refine hvalue level q _ _ result _ _ hhead hq (beginsName_fieldsTail _ _ _ _ _)
      (Nat.le_refl _) fun s' hs' => ?_
    refine hrest level s' _ _ result tail k (by omega) hs' htail hk fun s'' hs'' => hnext s'' ?_
    rw [opened_of_headD hhead, keyToken_of_headD hhead] at hs''
    simpa [fieldTokens] using hs''

mutual

theorem readsValue : ∀ setting, Legible setting → ReadsValue setting
  | .number n, _ =>
    readsValue_word (isPlainWord_toString n) (fun _ => by rw [settingText]) (by rw [tokensOf])
  | .single x, h => by
    rw [Legible] at h
    exact readsValue_word h (fun _ => by rw [settingText]) (by rw [tokensOf])
  | .flag b, _ => by
    refine @readsValue_word (.flag b) (if b then "true" else "false") ?_ ?_ (by rw [tokensOf])
    · cases b <;> decide
    · intro level
      cases b <;> simp [settingText]
  | .text s, _ => readsValue_text s
  | .record [], _ => readsValue_empty
  | .record ((name, value) :: rest), h => by
    rw [Legible] at h
    exact readsValue_record (readsFields ((name, value) :: rest) h)

theorem readsFields : ∀ fields, FieldsLegible fields → ReadsFields fields
  | [], _ => trivial
  | (name, value) :: rest, h => by
    rw [FieldsLegible] at h
    exact readsFields_cons h.1 (readsValue value h.2.1) (readsFields rest h.2.2)

end

/-- At the end of the text all blocks end. -/
theorem AtLine.scans_end (h : s.AtLine column indents tokens) :
    s.Scans [] (closed (-1) indents tokens).2 := by
  obtain ⟨p, indents', allowed, keys, tokens'⟩ := s
  obtain ⟨rfl, rfl, -, hblocks⟩ := h
  have hclosed : closed (-1) indents' tokens'.toList = closed (-1) indents tokens := by
    have hle : (-1 : Int) ≤ column := by omega
    rw [← closed_closed hle, hblocks, closed_closed hle]
  refine ⟨1, Nat.le_refl _, ?_⟩
  have hunroll := Scanner.unroll_eq p indents' true none tokens'.toList (-1)
  rw [Array.toArray_toList, hclosed] at hunroll
  rw [run_succ]
  simp [skipBlank, finish, dropStale_none, hunroll, dropKey, possibleKey]

theorem scans_document {name : String} {value : Setting} {rest : List (String × Setting)}
    (h : FieldsLegible ((name, value) :: rest)) :
    Scans .start (document (.record ((name, value) :: rest))).toList
      (tokensOf (.record ((name, value) :: rest))) := by
  have hstart : AtLine .start 0 [] [] := ⟨rfl, rfl, rfl, rfl⟩
  have hscans := readsFields _ h 0 .start [] [] (tokensOf (.record ((name, value) :: rest))) [] 0
    (by simp) hstart (by simp) (Nat.le_refl _)
  have htext : (document (.record ((name, value) :: rest))).toList =
      fieldsTail 0 name value rest [] := by
    have htext := toList_fieldsText 0 name value rest []
    rwa [List.append_nil] at htext
  rw [htext]
  refine hscans fun s hs => ?_
  have hend := hs.scans_end
  simpa [closed, opened, keyToken, tokensOf] using hend

end Scanner

/-! ## The whole text -/

/-- Printable, and no end of a line but a line feed. -/
def IsClean (c : Char) : Prop := isPrintable c = true ∧ c.toNat ≠ 0x85

instance (c : Char) : Decidable (IsClean c) := inferInstanceAs (Decidable (_ ∧ _))

theorem unifyLines_eq_self (h : ∀ c ∈ cs, IsClean c) : unifyLines cs = cs := by
  induction cs with
  | nil => rfl
  | cons c cs ih =>
    obtain ⟨hc, hcs⟩ := List.forall_mem_cons.mp h
    have hreturn : c ≠ '\r' := by
      rintro rfl
      exact absurd hc (by decide)
    rw [unifyLines.eq_def]
    split
    · next heq => cases heq
    · next heq => exact absurd (List.cons.inj heq).1 hreturn
    · next c' cs' _ heq =>
      obtain ⟨rfl, rfl⟩ := List.cons.inj heq
      simp [hreturn, hc.2, ih hcs]

theorem isClean_hexDigit : ∀ n < 16, IsClean (hexDigit n) := by
  decide

theorem isClean_escape (h : IsClean c) : ∀ d ∈ ['\\', c], IsClean d :=
  List.forall_mem_cons.mpr ⟨by decide, List.forall_mem_singleton.mpr h⟩

theorem isClean_quotedChar (c : Char) : ∀ d ∈ quotedChar c, IsClean d := by
  unfold quotedChar
  split_ifs with hquote hbackslash hline htab hnext hprintable hbyte
  · exact isClean_escape (by decide)
  · exact isClean_escape (by decide)
  · exact isClean_escape (by decide)
  · exact isClean_escape (by decide)
  · exact isClean_escape (by decide)
  · simpa [IsClean, hprintable] using hnext
  · simp only [List.forall_mem_cons]
    exact ⟨by decide, by decide, isClean_hexDigit _ (by omega), isClean_hexDigit _ (by omega),
      List.forall_mem_nil _⟩
  · have hlt := lt_of_not_isPrintable (Bool.eq_false_iff.mpr hprintable)
    simp only [List.forall_mem_cons]
    exact ⟨by decide, by decide, isClean_hexDigit _ (by omega), isClean_hexDigit _ (by omega),
      isClean_hexDigit _ (by omega), isClean_hexDigit _ (by omega), List.forall_mem_nil _⟩

theorem isClean_of_isSafe (h : isSafe c = true) : IsClean c := by
  have hrange : 0x20 ≤ c.toNat ∧ c.toNat ≤ 0x7E := by
    simp only [isSafe, Bool.or_eq_true, beq_iff_eq] at h
    rcases h with ((((h | rfl) | rfl) | rfl) | rfl) | rfl
    · have hdigit : c.isDigit = true ↔ 48 ≤ c.toNat ∧ c.toNat ≤ 57 := Char.isDigit_iff_toNat
      rw [Char.isAlphanum, Bool.or_eq_true, Text.isAlpha_iff, hdigit] at h
      omega
    all_goals decide
  refine ⟨?_, by omega⟩
  simp [isPrintable, hrange]

/-- A text of clean characters. -/
def IsCleanText (text : String) : Prop := ∀ c ∈ text.toList, IsClean c

instance (text : String) : Decidable (IsCleanText text) :=
  List.decidableBAll _ text.toList

theorem IsCleanText.append {text text' : String} (h : IsCleanText text) (h' : IsCleanText text') :
    IsCleanText (text ++ text') := by
  intro c hc
  rw [String.toList_append, List.mem_append] at hc
  exact hc.elim (h c) (h' c)

theorem IsPlainWord.isCleanText {text : String} (h : IsPlainWord text.toList) :
    IsCleanText text :=
  fun c hc => isClean_of_isSafe (h.1 c hc)

theorem isCleanText_scalarText (text : String) : IsCleanText (scalarText text) := by
  unfold IsCleanText
  rcases scalarText_cases text with ⟨-, htext, c, cs, hcs, -, hsafe⟩ | ⟨-, htext⟩
  · rw [htext, hcs]
    exact fun d hd => isClean_of_isSafe (hsafe d hd)
  · rw [htext, List.forall_mem_cons, List.forall_mem_append, List.forall_mem_singleton]
    refine ⟨by decide, ?_, by decide⟩
    intro d hd
    obtain ⟨c, -, hd⟩ := List.mem_flatMap.mp hd
    exact isClean_quotedChar c d hd

theorem isCleanText_indentation (level : Nat) : IsCleanText (indentation level) := by
  intro c hc
  rw [indentation, String.toList_ofList] at hc
  rw [List.eq_of_mem_replicate hc]
  decide

/-- A scalar behind a colon. -/
theorem IsCleanText.onLine {text : String} (h : IsCleanText text) :
    IsCleanText (" " ++ text ++ "\n") :=
  (IsCleanText.append (by decide) h).append (by decide)

mutual

theorem isCleanText_settingText (level : Nat) :
    ∀ setting, Legible setting → IsCleanText (settingText level setting)
  | .number n, _ => by
    rw [settingText]
    exact (isPlainWord_toString n).isCleanText.onLine
  | .single x, h => by
    rw [Legible] at h
    rw [settingText]
    exact h.isCleanText.onLine
  | .flag b, _ => by cases b <;> rw [settingText] <;> decide
  | .text s, _ => by
    rw [settingText]
    exact (isCleanText_scalarText s).onLine
  | .record [], _ => by
    rw [settingText]
    decide
  | .record (field :: rest), h => by
    rw [Legible] at h
    rw [settingText]
    exact .append (by decide) (isCleanText_fieldsText (level + 1) (field :: rest) h)

theorem isCleanText_fieldsText (level : Nat) :
    ∀ fields, FieldsLegible fields → IsCleanText (fieldsText level fields)
  | [], _ => by
    rw [fieldsText]
    decide
  | (name, value) :: rest, h => by
    rw [FieldsLegible] at h
    rw [fieldsText]
    have hname := (isCleanText_indentation level).append (isCleanText_scalarText name)
    have hvalue := isCleanText_settingText level value h.2.1
    have hrest := isCleanText_fieldsText level rest h.2.2
    exact ((hname.append (by decide)).append hvalue).append hrest

end

mutual

/-- No open place is left among the tokens. -/
theorem place_not_mem_tokensOf : ∀ setting, Token.place ∉ tokensOf setting
  | .number n => by simp [tokensOf]
  | .single x => by simp [tokensOf]
  | .flag b => by simp [tokensOf]
  | .text s => by simp [tokensOf]
  | .record [] => by simp [tokensOf]
  | .record ((name, value) :: rest) => by
    simp [tokensOf, place_not_mem_tokensOf value, place_not_mem_fieldTokens rest]

theorem place_not_mem_fieldTokens : ∀ fields, Token.place ∉ fieldTokens fields
  | [] => by simp [fieldTokens]
  | (name, value) :: rest => by
    simp [fieldTokens, place_not_mem_tokensOf value, place_not_mem_fieldTokens rest]

end

/-- The scanner finds in a document the tokens of its record. -/
theorem scan_document {field : String × Setting} {rest : List (String × Setting)}
    (h : FieldsLegible (field :: rest)) :
    scan (document (.record (field :: rest))).toList =
      some (tokensOf (.record (field :: rest))) := by
  have hclean : IsCleanText (document (.record (field :: rest))) := isCleanText_fieldsText 0 _ h
  have hall : ((document (.record (field :: rest))).toList.all fun c =>
      isPrintable c || c == '\r') = true := by
    rw [List.all_eq_true]
    intro c hc
    rw [(hclean c hc).1, Bool.true_or]
  have hfilter : (tokensOf (.record (field :: rest))).filter (· != .place) =
      tokensOf (.record (field :: rest)) := by
    rw [List.filter_eq_self]
    intro token htoken
    rw [bne_iff_ne]
    rintro rfl
    exact place_not_mem_tokensOf _ htoken
  rw [scan, if_pos hall, unifyLines_eq_self hclean]
  simp [(Scanner.scans_document h).run_eq, hfilter]

/-! ## The nodes of settings -/

mutual

/-- The node of a setting. -/
def nodeOf : Setting → Node
  | .number n => .scalar (toString n) true
  | .single x => .scalar (singleText x) true
  | .flag b => .scalar (if b then "true" else "false") true
  | .text s => .scalar s (isPlainText s)
  | .record fields => .mapping (entriesOf fields)

/-- The names of fields with the nodes of what they hold. -/
def entriesOf : List (String × Setting) → List (Node × Node)
  | [] => []
  | (name, value) :: rest => (.scalar name (isPlainText name), nodeOf value) :: entriesOf rest

end

theorem entriesOf_eq_map (fields : List (String × Setting)) :
    entriesOf fields =
      fields.map fun field => (.scalar field.1 (isPlainText field.1), nodeOf field.2) := by
  induction fields with
  | nil => rw [entriesOf, List.map_nil]
  | cons field rest ih => rw [entriesOf, ih, List.map_cons]

namespace Node

/-- The tokens of a setting are put together to its node. -/
def Parses (setting : Setting) : Prop :=
  ∀ (fuel : Nat) (bare : Bool) (more : List Token), (tokensOf setting).length < fuel →
    parseNode fuel true bare (tokensOf setting ++ more) = some (nodeOf setting, more)

/-- The tokens of fields are put together to entries. -/
def ParsesFields (fields : List (String × Setting)) : Prop :=
  ∀ (fuel : Nat) (done : List (Node × Node)) (more : List Token),
    (fieldTokens fields).length < fuel →
      parseBlockMapping fuel done (fieldTokens fields ++ .blockEnd :: more) =
        some (.mapping (done.reverse ++ entriesOf fields), more)

theorem parses_scalar {setting : Setting} {text : String} {plain : Bool}
    (htokens : tokensOf setting = [.scalar text plain])
    (hnode : nodeOf setting = .scalar text plain) : Parses setting := by
  intro fuel bare more hfuel
  obtain ⟨fuel, rfl⟩ : ∃ n, fuel = n + 1 := ⟨fuel - 1, by omega⟩
  rw [htokens, hnode, List.singleton_append, parseNode]

theorem parses_empty : Parses (.record []) := by
  intro fuel bare more hfuel
  have htokens : tokensOf (.record []) = [.openMapping, .closeMapping] := by rw [tokensOf]
  rw [htokens] at hfuel ⊢
  obtain ⟨fuel, rfl⟩ : ∃ n, fuel = n + 2 := ⟨fuel - 2, by simp at hfuel; omega⟩
  rw [List.cons_append, parseNode, List.singleton_append, parseFlowMapping]
  simp [nodeOf, entriesOf]

theorem parses_record {name : String} {value : Setting} {rest : List (String × Setting)}
    (h : ParsesFields ((name, value) :: rest)) : Parses (.record ((name, value) :: rest)) := by
  intro fuel bare more hfuel
  obtain ⟨fuel, rfl⟩ : ∃ n, fuel = n + 1 := ⟨fuel - 1, by omega⟩
  have htokens : tokensOf (.record ((name, value) :: rest)) ++ more =
      .firstKey :: ((fieldTokens ((name, value) :: rest)).tail ++ .blockEnd :: more) := by
    simp [tokensOf, fieldTokens]
  have hfields := h fuel [] more (by simp [tokensOf, fieldTokens] at hfuel ⊢; omega)
  rw [htokens, parseNode, if_pos rfl, nodeOf]
  simpa [fieldTokens] using hfields

/-- A setting does not begin with what can only follow one. -/
theorem exists_tokensOf_eq_cons (setting : Setting) :
    ∃ token tokens, tokensOf setting = token :: tokens ∧ token ≠ .key ∧ token ≠ .value ∧
      token ≠ .blockEnd := by
  cases setting with
  | record fields =>
    cases fields with
    | nil => exact ⟨_, _, by rw [tokensOf], by simp, by simp, by simp⟩
    | cons field rest =>
      obtain ⟨name, value⟩ := field
      exact ⟨_, _, by rw [tokensOf], by simp, by simp, by simp⟩
  | _ => exact ⟨_, _, by rw [tokensOf], by simp, by simp, by simp⟩

theorem parseBlockPart_of_parses {setting : Setting} (h : Parses setting) {fuel : Nat}
    (hfuel : (tokensOf setting).length + 1 < fuel) (more : List Token) :
    parseBlockPart fuel (tokensOf setting ++ more) = some (nodeOf setting, more) := by
  obtain ⟨fuel, rfl⟩ : ∃ n, fuel = n + 1 := ⟨fuel - 1, by omega⟩
  obtain ⟨token, tokens, htokens, hkey, hvalue, hend⟩ := exists_tokensOf_eq_cons setting
  rw [← h fuel true more (by omega), htokens, List.cons_append, parseBlockPart]
  · rintro _ ⟨⟩
    exact hkey rfl
  · rintro _ ⟨⟩
    exact hvalue rfl
  · rintro _ ⟨⟩
    exact hend rfl

theorem parsesFields_cons {name : String} {value : Setting} {rest : List (String × Setting)}
    (hvalue : Parses value) (hrest : ParsesFields rest) :
    ParsesFields ((name, value) :: rest) := by
  intro fuel done more hfuel
  have hlength : 3 + (tokensOf value).length + (fieldTokens rest).length < fuel := by
    simp [fieldTokens] at hfuel
    omega
  obtain ⟨fuel, rfl⟩ : ∃ n, fuel = n + 1 := ⟨fuel - 1, by omega⟩
  have hscalar : Parses (.text name) := parses_scalar (by rw [tokensOf]) (by rw [nodeOf])
  have hname := @parseBlockPart_of_parses _ hscalar fuel (by simp [tokensOf]; omega)
    (.value :: (tokensOf value ++ (fieldTokens rest ++ .blockEnd :: more)))
  have hpart := @parseBlockPart_of_parses _ hvalue fuel (by omega)
    (fieldTokens rest ++ .blockEnd :: more)
  have hfields := hrest fuel ((.scalar name (isPlainText name), nodeOf value) :: done) more
    (by omega)
  rw [tokensOf, List.singleton_append, nodeOf] at hname
  rw [fieldTokens, entriesOf, List.cons_append, parseBlockMapping]
  simp [hname, hpart, hfields]

mutual

theorem parses : ∀ setting, Parses setting
  | .number n => parses_scalar (by rw [tokensOf]) (by rw [nodeOf])
  | .single x => parses_scalar (by rw [tokensOf]) (by rw [nodeOf])
  | .flag b => parses_scalar (by rw [tokensOf]) (by rw [nodeOf])
  | .text s => parses_scalar (by rw [tokensOf]) (by rw [nodeOf])
  | .record [] => parses_empty
  | .record ((name, value) :: rest) => parses_record (parsesFields ((name, value) :: rest))

theorem parsesFields : ∀ fields, ParsesFields fields
  | [] => by
    intro fuel done more hfuel
    obtain ⟨fuel, rfl⟩ : ∃ n, fuel = n + 1 := ⟨fuel - 1, by omega⟩
    rw [fieldTokens, List.nil_append, parseBlockMapping, entriesOf, List.append_nil]
  | (name, value) :: rest => parsesFields_cons (parses value) (parsesFields rest)

end

/-- A document is read as the node of its record. -/
theorem read?_document {field : String × Setting} {rest : List (String × Setting)}
    (h : FieldsLegible (field :: rest)) :
    read? (document (.record (field :: rest))) = some (nodeOf (.record (field :: rest))) := by
  have hnode := parses (.record (field :: rest))
    (4 * (tokensOf (.record (field :: rest))).length + 4) false [] (by omega)
  rw [List.append_nil] at hnode
  rw [read?, scan_document h, Option.bind_some]
  obtain ⟨tokens, htokens⟩ : ∃ tokens, tokensOf (.record (field :: rest)) = .firstKey :: tokens :=
    ⟨_, by rw [tokensOf]⟩
  rw [htokens, List.length_cons] at hnode
  rw [htokens]
  simp [ofTokens?, hnode, isFinished]

end Node

end Jukebox.Yaml
