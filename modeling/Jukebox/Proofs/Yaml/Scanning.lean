import Jukebox.Proofs.Yaml.Scalar

/-!
# The scanner on block mappings

What the scanner does with one name and its colon, and with one value on its line.  It is followed
from one beginning of a line to the next: there only the blocks that are open and the tokens so far
matter (`Scanner.AtLine`).
-/

namespace Jukebox.Yaml

variable {c d : Char} {cs cs' cs'' rest tail more : List Char} {s s' s'' : Scanner} {p : Position}
  {indents : List Int} {column : Nat} {allowed : Bool} {tokens result : List Token}

namespace Scanner

/-! ## Runs of the scanner -/

/-- From here the scanner comes to the end of the text, with these tokens in all. -/
def Scans (s : Scanner) (cs : List Char) (result : List Token) : Prop :=
  ∃ fuel ≤ cs.length + 1, run fuel s cs = some result.toArray

theorem run_succ (fuel : Nat) (s : Scanner) (cs : List Char) :
    run (fuel + 1) s cs =
      match s.skipBlank false cs with
      | (s, []) => s.finish
      | (s, c :: cs) => (s.token c cs).bind fun (s, cs) => run fuel s cs := rfl

theorem run_mono {fuel fuel' : Nat} {found : Array Token} (h : run fuel s cs = some found)
    (hle : fuel ≤ fuel') : run fuel' s cs = some found := by
  induction fuel generalizing fuel' s cs with
  | zero => cases h
  | succ fuel ih =>
    obtain ⟨fuel', rfl⟩ : ∃ n, fuel' = n + 1 := ⟨fuel' - 1, by omega⟩
    rw [run_succ] at h ⊢
    split at h
    · exact h
    · obtain ⟨⟨s, cs⟩, htoken, hrun⟩ := Option.bind_eq_some_iff.mp h
      rw [htoken]
      exact ih hrun (by omega)

theorem Scans.run_eq (h : s.Scans cs result) : run (cs.length + 1) s cs = some result.toArray := by
  obtain ⟨fuel, hfuel, hrun⟩ := h
  exact run_mono hrun hfuel

/-- After blank space the scanner goes on with a token. -/
theorem Scans.of_token (hblank : s.skipBlank false cs = (s', c :: cs'))
    (htoken : s'.token c cs' = some (s'', cs'')) (hlength : cs''.length < cs.length)
    (h : s''.Scans cs'' result) : s.Scans cs result := by
  obtain ⟨fuel, hfuel, hrun⟩ := h
  refine ⟨fuel + 1, by omega, ?_⟩
  rw [run_succ, hblank]
  simp only [htoken, Option.bind_some, hrun]

/-- Where no blank space stands any more the scanner goes on in the same way. -/
theorem Scans.of_skipBlank (hblank : s.skipBlank false cs = (s', tail))
    (hagain : s'.skipBlank false tail = (s', tail)) (hlength : tail.length ≤ cs.length)
    (h : s'.Scans tail result) : s.Scans cs result := by
  obtain ⟨fuel, hfuel, hrun⟩ := h
  cases fuel with
  | zero => cases hrun
  | succ fuel =>
    refine ⟨fuel + 1, by omega, ?_⟩
    rwa [run_succ, hblank, ← hagain, ← run_succ]

/-! ## Blocks -/

/-- The blocks that are open, and the tokens, after those blocks have ended that are indented
further. -/
def closed (column : Int) (indents : List Int) (tokens : List Token) : List Int × List Token :=
  (indents.dropWhile (column < ·),
    tokens ++ (indents.takeWhile (column < ·)).map fun _ => .blockEnd)

theorem closed_cons {indent : Int} {column : Int} (h : column < indent) (indents : List Int)
    (tokens : List Token) :
    closed column (indent :: indents) tokens = closed column indents (tokens ++ [.blockEnd]) := by
  simp [closed, h]

theorem closed_of_le {column : Int} (h : indents.headD (-1) ≤ column) (tokens : List Token) :
    closed column indents tokens = (indents, tokens) := by
  cases indents with
  | nil => simp [closed]
  | cons indent indents =>
    have hle : ¬column < indent := Int.not_lt.mpr h
    simp [closed, hle]

/-- Blocks that have ended further to the right make no difference. -/
theorem closed_closed {column column' : Int} (h : column' ≤ column) (indents : List Int)
    (tokens : List Token) :
    closed column' (closed column indents tokens).1 (closed column indents tokens).2 =
      closed column' indents tokens := by
  induction indents generalizing tokens with
  | nil => simp [closed]
  | cons indent indents ih =>
    by_cases hindent : column < indent
    · rw [closed_cons hindent, ih, closed_cons (by omega)]
    · have hle : (indent :: indents).headD (-1) ≤ column := Int.not_lt.mp hindent
      rw [closed_of_le hle]

theorem unroll_eq (p : Position) (indents : List Int) (allowed : Bool) (key : Option Key)
    (tokens : List Token) (column : Int) :
    unroll ⟨p, indents, allowed, [key], tokens.toArray⟩ column =
      ⟨p, (closed column indents tokens).1, allowed, [key],
        (closed column indents tokens).2.toArray⟩ := by
  have hfold : ∀ (ended : List Int) (tokens : List Token),
      ended.foldl (fun tokens _ => tokens.push Token.blockEnd) tokens.toArray =
        (tokens ++ ended.map fun _ => Token.blockEnd).toArray := by
    intro ended
    induction ended with
    | nil => simp
    | cons indent ended ih =>
      intro tokens
      rw [List.foldl_cons, List.push_toArray, ih]
      simp
  have hdrop : indents.drop (indents.takeWhile (column < ·)).length =
      indents.dropWhile (column < ·) := by
    conv_lhs => arg 2; rw [← @List.takeWhile_append_dropWhile _ (column < ·) indents]
    exact List.drop_left
  simp [unroll, inFlow, closed, hfold, hdrop]

/-- Before a name, or at the end of the text: a key may begin here, and what was read are these
tokens in these blocks, but for blocks that end here. -/
structure AtLine (s : Scanner) (column : Nat) (indents : List Int) (tokens : List Token) :
    Prop where
  keyAllowed : s.keyAllowed = true
  keys : s.keys = [none]
  stands : s.position.column = column
  blocks : closed column s.indents s.tokens.toList = closed column indents tokens

@[simp]
theorem position_unroll (s : Scanner) (column : Int) : (s.unroll column).position = s.position := by
  unfold unroll
  split <;> rfl

/-! ## Tokens -/

/-- No possible key is given up where there is none. -/
theorem dropStale_none (p : Position) (indents : List Int) (allowed : Bool)
    (tokens : Array Token) :
    dropStale ⟨p, indents, allowed, [none], tokens⟩ =
      some ⟨p, indents, allowed, [none], tokens⟩ := rfl

theorem noteKey_of_allowed (p : Position) (indents : List Int) (tokens : List Token) :
    noteKey ⟨p, indents, true, [none], tokens.toArray⟩ =
      some ⟨p, indents, true, [some ⟨tokens.length, p, indents.headD (-1) == p.column⟩],
        (tokens ++ [Token.place]).toArray⟩ := by
  simp [noteKey, dropKey, possibleKey, withKey, emit, inFlow, indent]

theorem noteKey_of_not_allowed (p : Position) (indents : List Int) (keys : List (Option Key))
    (tokens : Array Token) :
    noteKey ⟨p, indents, false, keys, tokens⟩ = some ⟨p, indents, false, keys, tokens⟩ := rfl

/-- A text in double quotes is read to its closing quote. -/
theorem token_quoted (hkeys : s.keys = [none])
    (hnote : (s.unroll s.position.column).noteKey = some s') (text rest : List Char) :
    s.token '"' (text.flatMap quotedChar ++ '"' :: rest) =
      some (s'.addScalar ⟨text.reverse, .spaces [],
        s'.position.right ((text.flatMap quotedChar).length + 2)⟩ false, rest) := by
  obtain ⟨p, indents, allowed, keys, tokens⟩ := s
  subst hkeys
  have hmark : ∀ cs, isDocumentMark ('"' :: cs) = false := fun _ => rfl
  have hscan := @scanQuoted_flatMap text (s'.position.right 1) (Nat.succ_ne_zero _) [] [] rest
  rw [Position.right_right, List.nil_append, List.append_nil, Nat.add_comm 1] at hscan
  simp [token, dropStale_none, hmark, hnote, hscan]

/-- A word of safe characters is read as far as a plain scalar goes. -/
theorem token_word (hkeys : s.keys = [none]) (hword : ∀ d ∈ c :: cs, isSafe d = true)
    (hdash : c = '-' → cs ≠ [])
    (hmark : s.position.column = 0 → isDocumentMark (c :: (cs ++ rest)) = false)
    (hnote : (s.unroll s.position.column).noteKey = some s') (hflow : s'.inFlow = false)
    {scalar : Scalar} (hscan : scanPlain false (s'.indent + 1) ⟨(c :: cs).reverse, .spaces [],
      s'.position.right (c :: cs).length⟩ false rest = some (scalar, more)) :
    s.token c (cs ++ rest) = some (s'.addScalar scalar true, more) := by
  obtain ⟨p, indents, allowed, keys, tokens⟩ := s
  subst hkeys
  have hc : isSafe c = true := hword c List.mem_cons_self
  have hno {d : Char} (hd : isSafe d = false) : (c == d) = false :=
    beq_eq_false_iff_ne.mpr (ne_of_isSafe hc hd)
  have hdash' : (c == '-' && endsWord (cs ++ rest)) = false := by
    rw [Bool.and_eq_false_imp, beq_iff_eq]
    intro heq
    obtain ⟨d, cs', rfl⟩ := List.exists_cons_of_ne_nil (hdash heq)
    have hd : isSafe d = true := hword d (by simp)
    rw [List.cons_append, endsWord, isGap_of_isSafe hd]
    simpa using ne_of_isSafe hd (d := '\n') (by decide)
  have hmark' : (p.column == 0 && isDocumentMark (c :: (cs ++ rest))) = false := by
    simpa using hmark
  have hbegins : (c == '-' && !endsWord (cs ++ rest) || !isIndicator c) = true := by
    by_cases hc' : c = '-'
    · rw [hc', beq_self_eq_true, Bool.true_and] at hdash'
      simp [hc', hdash']
    · simp [isIndicator_of_isSafe hc hc']
  have hplain : scanPlain false (s'.indent + 1) ⟨[], .spaces [], s'.position⟩ false
      (c :: (cs ++ rest)) = some (scalar, more) := by
    rw [← List.cons_append, scanPlain_append hword, List.append_nil]
    exact hscan
  simp only [token, dropStale_none, Option.bind_eq_bind, Option.bind_some, position_unroll, hmark',
    hdash', hno (d := '%') (by decide), hno (d := '[') (by decide), hno (d := '{') (by decide),
    hno (d := ']') (by decide), hno (d := '}') (by decide), hno (d := ',') (by decide),
    hno (d := '?') (by decide), hno (d := ':') (by decide), hno (d := '\'') (by decide),
    hno (d := '"') (by decide), Bool.false_and, Bool.and_false, Bool.or_false, Bool.false_eq_true,
    if_false, hbegins, if_true, hnote, hflow, hplain]
  rfl

/-- A colon behind a key. -/
theorem token_colon {key : Key} (hline : key.position.line = p.line)
    (hoffset : p.offset ≤ key.position.offset + 1024)
    (hindents : indents.headD (-1) ≤ p.column) (hcs : endsWord cs = true) :
    token ⟨p, indents, false, [some key], tokens.toArray⟩ ':' cs =
      (colon ⟨p, indents, false, [some key], tokens.toArray⟩).bind fun s => some (s, cs) := by
  have hstale : dropStale ⟨p, indents, false, [some key], tokens.toArray⟩ =
      some ⟨p, indents, false, [some key], tokens.toArray⟩ := by
    have hoffset' : ¬key.position.offset + 1024 < p.offset := Nat.not_lt.mpr hoffset
    simp [dropStale, hline, hoffset']
  have hmark : isDocumentMark (':' :: cs) = false := rfl
  simp [token, hstale, unroll_eq, closed_of_le hindents, hmark, hcs]

/-! ## Names -/

theorem skipBlank_of_isSafe (hc : isSafe c = true ∨ c = '"') (s : Scanner) (cs : List Char) :
    s.skipBlank false (c :: cs) = (s, c :: cs) := by
  have hno {d : Char} (hd : isSafe d = false) (hquote : d ≠ '"') : (c == d) = false := by
    rw [beq_eq_false_iff_ne]
    rcases hc with hc | rfl
    · exact ne_of_isSafe hc hd
    · exact hquote.symm
  have hmark : (c.toNat == 0xFEFF) = false := by
    have hne := beq_eq_false_iff_ne.mp (hno (d := '\uFEFF') (by decide) (by decide))
    rw [beq_eq_false_iff_ne]
    exact fun heq => hne (Char.toNat_inj.mp heq)
  rw [skipBlank]
  simp [hno (d := '\n') (by decide) (by decide), hno (d := ' ') (by decide) (by decide),
    hno (d := '\t') (by decide) (by decide), hno (d := '#') (by decide) (by decide), hmark]

theorem skipBlank_of_beginsName (htail : ∀ c ∈ tail.head?, BeginsName c) (s : Scanner) :
    s.skipBlank false tail = (s, tail) := by
  cases tail with
  | nil => rfl
  | cons c tail => exact skipBlank_of_isSafe (htail c rfl).isSafe_or s tail

/-- The open blocks once a key has been read at a column. -/
def opened (column : Nat) (indents : List Int) : List Int :=
  if indents.headD (-1) < column then (column : Int) :: indents else indents

/-- The mark of a key at a column: of the first one in its block, or of another one. -/
def keyToken (column : Nat) (indents : List Int) : Token :=
  if indents.headD (-1) < column then .firstKey else .key

theorem AtLine.unroll_eq (h : s.AtLine column indents tokens)
    (hopen : indents.headD (-1) ≤ column) :
    s.unroll s.position.column = ⟨s.position, indents, true, [none], tokens.toArray⟩ := by
  obtain ⟨p, indents', allowed, keys, tokens'⟩ := s
  obtain ⟨rfl, rfl, rfl, hblocks⟩ := h
  rw [closed_of_le hopen] at hblocks
  have hunroll := Scanner.unroll_eq p indents' true none tokens'.toList p.column
  rw [Array.toArray_toList, hblocks] at hunroll
  exact hunroll

/-- A name is read as a possible key. -/
theorem AtLine.token_name (h : s.AtLine column indents tokens)
    (hopen : indents.headD (-1) ≤ column) (name : String) (hrest : endsWord rest = true) :
    ∃ c cs, (scalarText name).toList ++ ':' :: rest = c :: cs ∧ BeginsName c ∧
      s.token c cs = some (⟨s.position.right (scalarText name).length, indents, false,
        [some ⟨tokens.length, s.position, indents.headD (-1) == s.position.column⟩],
        (tokens ++ [Token.place, .scalar name (isPlainText name)]).toArray⟩, ':' :: rest) := by
  have hnote : (s.unroll s.position.column).noteKey = _ :=
    (congrArg noteKey (h.unroll_eq hopen)).trans (noteKey_of_allowed _ _ _)
  rw [← String.length_toList]
  rcases scalarText_cases name with ⟨hplain, htext, c, cs, hname, hc, hsafe⟩ | ⟨hplain, htext⟩
  · have hbegins : BeginsName c := hc.elim .inl fun h => .inr (.inl h)
    have hdash : c = '-' → cs ≠ [] := by
      rintro rfl
      exact absurd rfl (hbegins.ne (d := '-') (by decide) (by decide) (by decide))
    refine ⟨c, cs ++ ':' :: rest, by rw [htext, hname, List.cons_append], hbegins, ?_⟩
    rw [token_word h.keys hsafe hdash (fun _ => hbegins.not_isDocumentMark _) hnote rfl
      (scanPlain_colon hrest _ _)]
    have hback : String.ofList (c :: cs) = name := by rw [← hname, String.ofList_toList]
    simp [addScalar, emit, hplain, htext, hname, hback, Pending.isLeading]
  · refine ⟨'"', _, by rw [htext, List.cons_append, List.append_assoc, List.singleton_append],
      .inr (.inr rfl), ?_⟩
    rw [token_quoted h.keys hnote]
    simp [addScalar, emit, hplain, htext]

theorem skipBlank_colon (s : Scanner) (cs : List Char) :
    s.skipBlank false (':' :: cs) = (s, ':' :: cs) := by
  rw [skipBlank]
  simp

/-- A colon settles the place of the possible key, and opens a block unless one is open there. -/
theorem colon_eq (p q : Position) (indents : List Int) (tokens : List Token) (token : Token)
    (required : Bool) :
    colon ⟨p, indents, false, [some ⟨tokens.length, q, required⟩],
        (tokens ++ [Token.place, token]).toArray⟩ =
      some ⟨p.right 1, opened q.column indents, false, [none],
        (tokens ++ [keyToken q.column indents, token, .value]).toArray⟩ := by
  simp [colon, possibleKey, inFlow, indent, withKey, allowKey, right, emit, opened, keyToken]

/-- A name and a colon, and what comes behind them. -/
theorem AtLine.scans_name (h : s.AtLine column indents tokens)
    (hopen : indents.headD (-1) ≤ column) {name : String} (hname : (scalarText name).length ≤ 1024)
    (hrest : endsWord rest = true)
    (hnext : ∀ q : Position, column < q.column →
      Scans ⟨q, opened column indents, false, [none], (tokens ++ [keyToken column indents,
        .scalar name (isPlainText name), .value]).toArray⟩ rest result) :
    s.Scans ((scalarText name).toList ++ ':' :: rest) result := by
  obtain rfl : s.position.column = column := h.stands
  obtain ⟨c, cs, htext, hc, htoken⟩ := h.token_name hopen name hrest
  have hpositive : 0 < (scalarText name).length := by
    obtain ⟨c, cs, hcs, -⟩ := beginsName_of_scalarText name
    rw [← String.length_toList, hcs]
    exact Nat.succ_pos _
  have hhead : indents.headD (-1) ≤ (s.position.right (scalarText name).length).column := by
    rw [Position.column_right]
    omega
  have hcolon := @token_colon rest (s.position.right (scalarText name).length) indents
    (tokens ++ [Token.place, .scalar name (isPlainText name)])
    ⟨tokens.length, s.position, indents.headD (-1) == s.position.column⟩ rfl
    (Nat.add_le_add_left hname _) hhead hrest
  rw [colon_eq, Option.bind_some] at hcolon
  rw [htext]
  refine .of_token (skipBlank_of_isSafe hc.isSafe_or s cs) htoken ?_ ?_
  · rw [← htext, List.length_append, String.length_toList]
    omega
  · refine .of_token (skipBlank_colon _ _) hcolon (Nat.lt_succ_self _) (hnext _ ?_)
    rw [Position.column_right, Position.column_right]
    omega

/-! ## Values -/

theorem skipBlank_space (s : Scanner) (cs : List Char) :
    s.skipBlank false (' ' :: cs) = (s.right 1).skipBlank false cs := by
  rw [skipBlank]
  simp

theorem skipBlank_replicate (htail : ∀ c ∈ tail.head?, BeginsName c) (s : Scanner) (k : Nat) :
    s.skipBlank false (List.replicate k ' ' ++ tail) = (s.right k, tail) := by
  induction k generalizing s with
  | zero => exact skipBlank_of_beginsName htail s
  | succ k ih =>
    rw [List.replicate_succ, List.cons_append, skipBlank_space, ih]
    simp [right, Nat.add_comm]

/-- At the end of a line the scanner goes to the next name, and a key may begin there. -/
theorem Scans.newLine (htail : ∀ c ∈ tail.head?, BeginsName c) {k : Nat}
    (hnext : ∀ s' : Scanner, s'.AtLine k indents tokens → s'.Scans tail result) (p : Position) :
    Scans ⟨p, indents, false, [none], tokens.toArray⟩
      ('\n' :: (List.replicate k ' ' ++ tail)) result := by
  have hblank : skipBlank ⟨p, indents, false, [none], tokens.toArray⟩ false
      ('\n' :: (List.replicate k ' ' ++ tail)) =
        (⟨p.down.right k, indents, true, [none], tokens.toArray⟩, tail) := by
    rw [skipBlank]
    exact skipBlank_replicate htail _ k
  refine .of_skipBlank hblank (skipBlank_of_beginsName htail _) ?_ (hnext _ ?_)
  · simp
    omega
  · exact ⟨rfl, rfl, by simp, by simp⟩

/-- Behind the colon of a name no block ends. -/
theorem unroll_right (hhead : indents.headD (-1) ≤ p.column) :
    unroll ⟨p.right 1, indents, false, [none], tokens.toArray⟩ (p.right 1).column =
      ⟨p.right 1, indents, false, [none], tokens.toArray⟩ := by
  rw [Scanner.unroll_eq, closed_of_le]
  rw [Position.column_right]
  omega

/-- A word behind a colon, up to the next name. -/
theorem scans_word (hword : IsPlainWord cs) (hhead : indents.headD (-1) ≤ p.column)
    (htail : ∀ c ∈ tail.head?, BeginsName c) {k : Nat} (hk : (k : Int) ≤ indents.headD (-1))
    (hnext : ∀ s' : Scanner, s'.AtLine k indents (tokens ++ [.scalar (String.ofList cs) true]) →
      s'.Scans tail result) :
    Scans ⟨p, indents, false, [none], tokens.toArray⟩
      (' ' :: (cs ++ '\n' :: (List.replicate k ' ' ++ tail))) result := by
  obtain ⟨hsafe, hne, hdash⟩ := hword
  obtain ⟨c, cs, rfl⟩ := List.exists_cons_of_ne_nil hne
  let s : Scanner := ⟨p.right 1, indents, false, [none], tokens.toArray⟩
  have hblank : skipBlank ⟨p, indents, false, [none], tokens.toArray⟩ false
      (' ' :: (c :: cs ++ '\n' :: (List.replicate k ' ' ++ tail))) =
        (s, c :: (cs ++ '\n' :: (List.replicate k ' ' ++ tail))) := by
    rw [skipBlank_space]
    exact skipBlank_of_isSafe (.inl (hsafe c List.mem_cons_self)) _ _
  have hnote : (s.unroll s.position.column).noteKey = some s :=
    congrArg noteKey (unroll_right hhead)
  have hscan := @scanPlain_newLine tail (indents.headD (-1) + 1) htail k
    (fun _ => Int.lt_add_one_of_le hk) (c :: cs).reverse ((p.right 1).right (c :: cs).length)
  have htoken := token_word (s := s) rfl hsafe (by rintro rfl; simpa using hdash)
    (fun h => absurd h (Nat.succ_ne_zero _)) hnote rfl hscan
  refine .of_token hblank htoken (by simp; omega) (hnext _ ?_)
  exact ⟨rfl, rfl, by simp [addScalar], by simp [addScalar, emit, s]⟩

/-- A text in double quotes behind a colon, up to the next name. -/
theorem scans_quoted (hhead : indents.headD (-1) ≤ p.column)
    (htail : ∀ c ∈ tail.head?, BeginsName c) {k : Nat}
    (hnext : ∀ s' : Scanner, s'.AtLine k indents (tokens ++ [.scalar (String.ofList cs) false]) →
      s'.Scans tail result) :
    Scans ⟨p, indents, false, [none], tokens.toArray⟩
      (' ' :: '"' :: (cs.flatMap quotedChar ++ '"' :: '\n' :: (List.replicate k ' ' ++ tail)))
      result := by
  let s : Scanner := ⟨p.right 1, indents, false, [none], tokens.toArray⟩
  have hnote : (s.unroll s.position.column).noteKey = some s :=
    congrArg noteKey (unroll_right hhead)
  have htoken := token_quoted (s := s) rfl hnote cs ('\n' :: (List.replicate k ' ' ++ tail))
  refine .of_token (skipBlank_space _ _ ▸ skipBlank_of_isSafe (.inr rfl) _ _) htoken
    (by simp; omega) ?_
  have hline := @Scans.newLine tail indents _ result htail k hnext
    ((p.right 1).right ((cs.flatMap quotedChar).length + 2))
  simpa [addScalar, emit, s] using hline

/-- An empty record behind a colon. -/
theorem scans_empty (hhead : indents.headD (-1) ≤ p.column)
    (htail : ∀ c ∈ tail.head?, BeginsName c) {k : Nat}
    (hnext : ∀ s' : Scanner, s'.AtLine k indents (tokens ++ [.openMapping, .closeMapping]) →
      s'.Scans tail result) :
    Scans ⟨p, indents, false, [none], tokens.toArray⟩
      (' ' :: '{' :: '}' :: '\n' :: (List.replicate k ' ' ++ tail)) result := by
  let s : Scanner := ⟨p.right 1, indents, false, [none], tokens.toArray⟩
  let inside : Scanner :=
    ⟨p.right 2, indents, true, [none, none], (tokens ++ [Token.openMapping]).toArray⟩
  have hunroll : s.unroll (s.position.column : Int) = s := unroll_right hhead
  have hblank (s : Scanner) (c : Char) (hc : c = '{' ∨ c = '}') (cs : List Char) :
      s.skipBlank false (c :: cs) = (s, c :: cs) := by
    rw [skipBlank]
    rcases hc with rfl | rfl <;> simp
  have hopen : s.token '{' ('}' :: '\n' :: (List.replicate k ' ' ++ tail)) =
      some (inside, '}' :: '\n' :: (List.replicate k ' ' ++ tail)) := by
    have hstale : s.dropStale = some s := dropStale_none _ _ _ _
    simp only [token, hstale, Option.bind_eq_bind, Option.bind_some, hunroll]
    simp [s, openFlow, noteKey_of_not_allowed, allowKey, right, emit, inside]
  have hclose : inside.token '}' ('\n' :: (List.replicate k ' ' ++ tail)) =
      some (⟨p.right 3, indents, false, [none],
        (tokens ++ [Token.openMapping, .closeMapping]).toArray⟩,
        '\n' :: (List.replicate k ' ' ++ tail)) := by
    simp [token, inside, dropStale, unroll, inFlow, closeFlow, dropKey, possibleKey, allowKey,
      right, emit]
  refine .of_token (skipBlank_space _ _ ▸ hblank _ '{' (.inl rfl) _) hopen (by simp) ?_
  refine .of_token (hblank _ '}' (.inr rfl) _) hclose (by simp) ?_
  exact .newLine htail hnext _

end Scanner

end Jukebox.Yaml
