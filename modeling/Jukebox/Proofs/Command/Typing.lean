import Mathlib.Data.String.Basic
import Jukebox.Command.Reader
import Jukebox.Command.Spelling
import Jukebox.Proofs.Text

/-!
# Commands as they are typed

A message that holds the words of a command behind the sign is read as that command, whatever blank
space stands between the words and around the message, and in whatever case the name is typed
(`Command.typed_is_understood`).  What cannot be typed in this way is left out by
`Command.Typable`: a text that is not made of words, or a query that ends as if in an attribute.
-/

namespace Jukebox

open Jukebox.Text

/-- An attribute at the end of a query would be taken for one: a word of more than one byte that
begins with one of the two signs. -/
def LooksLikeAttribute (word : String) : Prop :=
  1 < word.utf8ByteSize ∧ (word.toList.head? = some '@' ∨ word.toList.head? = some '#')

instance (word : String) : Decidable (LooksLikeAttribute word) :=
  inferInstanceAs (Decidable (_ ∧ _))

/-- Words with single spaces between them. -/
def IsPhrase (phrase : String) : Prop :=
  ∃ words : List String, words ≠ [] ∧ (∀ word ∈ words, IsWord word.toList) ∧
    phrase = " ".intercalate words

/-- A phrase whose last word does not look like an attribute. -/
def IsQuery (query : String) : Prop :=
  ∃ (words : List String) (last : String), (∀ word ∈ words ++ [last], IsWord word.toList) ∧
    ¬ LooksLikeAttribute last ∧ query = " ".intercalate (words ++ [last])

theorem IsQuery.isPhrase {query : String} (h : IsQuery query) : IsPhrase query := by
  obtain ⟨words, last, hwords, -, hquery⟩ := h
  exact ⟨words ++ [last], by simp, hwords, hquery⟩

/-- The place to start at is a whole number of seconds, and fits a word of the machine. -/
def PlayAttributes.Typable (attributes : PlayAttributes) : Prop :=
  ∀ span ∈ attributes.offset, ∃ n ≤ maxWord, span = Span.ofSeconds n

namespace Command

/-- The command can be typed. -/
def Typable : Command → Prop
  | .play query attributes => (∀ text ∈ query, IsQuery text) ∧ attributes.Typable
  | .add query attributes => IsQuery query ∧ attributes.Typable
  | .move i j => i < maxWord ∧ j < maxWord
  | .remove index => index < maxWord
  | .status limit => limit ≤ maxWord
  | .exportList name | .importList name _ => IsWord name.toList
  | .lists start => ∀ text ∈ start, IsWord text.toList
  | .playlist _ target => IsPhrase target
  | .loginSms phone code => IsWord phone.toList ∧ ∀ text ∈ code, IsWord text.toList
  | _ => True

/-- A message spells a command: behind the sign stand its words, the name in any case of letters,
with any blank space between two words and around the message. -/
inductive Typed (sign : String) (command : Command) : String → Prop
  | intro {name typed : String} {arguments : List String} {before text after : List Char}
      (hwords : command.words = name :: arguments)
      (hname : sameAsciiLetters name typed = true)
      (htext : Spaced ((typed :: arguments).map String.toList) text)
      (hbefore : ∀ c ∈ before, isBlank c = true) (hafter : ∀ c ∈ after, isBlank c = true) :
      Typed sign command (String.ofList (before ++ (sign.toList ++ text) ++ after))

/-! ## Phrases -/

theorem phraseWords_intercalate {words : List String} (hne : words ≠ [])
    (h : ∀ word ∈ words, IsWord word.toList) : phraseWords (" ".intercalate words) = words := by
  have hparts : words.map String.toList = pieces (· == ' ') (" ".intercalate words).toList := by
    rw [eq_pieces_iff, String.toList_intercalate]
    refine ⟨by simpa using hne, ?_, rfl⟩
    intro part hpart hspace
    obtain ⟨word, hword, rfl⟩ := List.mem_map.mp hpart
    exact absurd ((h word hword).2 ' ' hspace) (by decide)
  rw [phraseWords, ← hparts, List.map_map]
  simp

theorem phraseWords_of_isPhrase {phrase : String} (h : IsPhrase phrase) :
    phraseWords phrase ≠ [] ∧ (∀ word ∈ phraseWords phrase, IsWord word.toList) ∧
      " ".intercalate (phraseWords phrase) = phrase := by
  obtain ⟨words, hne, hwords, rfl⟩ := h
  rw [phraseWords_intercalate hne hwords]
  exact ⟨hne, hwords, rfl⟩

/-! ## Attributes -/

theorem isAttribute_iff (word : String) : isAttribute word = true ↔ LooksLikeAttribute word := by
  rw [LooksLikeAttribute, ← String.utf8Len_toList, isAttribute]
  cases word.toList with
  | nil => simp
  | cons c cs =>
    cases cs with
    | nil =>
      have hone : ¬ (1 < String.utf8Len [c] ∧ ([c].head? = some '@' ∨ [c].head? = some '#')) := by
        rintro ⟨hsize, hc | hc⟩ <;> cases hc <;> exact absurd hsize (by decide)
      simp only [hone, iff_false]
      exact Bool.false_ne_true
    | cons d cs =>
      have hsize : 1 < String.utf8Len (c :: d :: cs) := by
        have hc := c.utf8Size_pos
        have hd := d.utf8Size_pos
        simp only [String.utf8Len_cons]
        omega
      simp only [hsize, true_and, List.head?_cons, Option.some.injEq]
      split <;> simp_all

theorem isWord_of_digits {sign : List Char} (hsign : ∀ c ∈ sign, isBlank c = false) (n : Nat) :
    IsWord (sign ++ Nat.toDigits 10 n) := by
  refine ⟨by simp [Nat.toDigits_ne_nil], ?_⟩
  intro c hc
  rcases List.mem_append.mp hc with hc | hc
  · exact hsign c hc
  · exact isBlank_of_isAsciiDigit (isAsciiDigit_of_mem_toDigits hc)

theorem isWord_toString (n : Nat) : IsWord (toString n).toList := by
  have hdigits : (toString n).toList = [] ++ Nat.toDigits 10 n := by simp
  rw [hdigits]
  exact isWord_of_digits (List.forall_mem_nil _) n

theorem toList_offsetWord (n : Nat) : s!"@{n}".toList = ['@'] ++ Nat.toDigits 10 n := by
  have hword : s!"@{n}" = "@" ++ toString n := rfl
  rw [hword]
  simp

theorem isWord_offsetWord (n : Nat) : IsWord s!"@{n}".toList := by
  rw [toList_offsetWord]
  exact isWord_of_digits (List.forall_mem_singleton.mpr rfl) n

theorem isAttribute_offsetWord (n : Nat) : isAttribute s!"@{n}" = true := by
  obtain ⟨d, ds, hdigits, -⟩ := toDigits_eq_cons n
  rw [isAttribute, toList_offsetWord, hdigits]
  rfl

/-- The word for a number of seconds is read as that many seconds. -/
theorem accept_offset {n : Nat} (h : n ≤ maxWord) (attributes : PlayAttributes) :
    attributes.accept s!"@{n}" = { attributes with offset := some (Span.ofSeconds n) } := by
  have htrimmed := trimmed_eq_self (isWord_offsetWord n).isTrimmed
  have hread : Span.read? (String.ofList (Nat.toDigits 10 n)) = some (Span.ofSeconds n) := by
    rw [Span.read?, String.toList_ofList, readWord?, readNatural?_toDigits h]
  rw [PlayAttributes.accept, htrimmed, toList_offsetWord]
  simp only [List.cons_append, List.nil_append, hread]

theorem accept_source (source : AudioSource) (attributes : PlayAttributes) :
    attributes.accept (sourceWord source) = { attributes with source := some source } := by
  cases source <;> rfl

/-- The words for attributes are taken for attributes, and for these. -/
theorem attributeWords_eq {attributes : PlayAttributes} (h : attributes.Typable) :
    (∀ word ∈ attributeWords attributes, IsWord word.toList ∧ isAttribute word = true) ∧
      PlayAttributes.ofWords (attributeWords attributes) = attributes := by
  obtain ⟨offset, source⟩ := attributes
  have hsource : ∀ word ∈ (source.map sourceWord).toList,
      IsWord word.toList ∧ isAttribute word = true := by
    intro word hword
    obtain ⟨source, -, rfl⟩ := Option.map_eq_some_iff.mp (Option.mem_toList.mp hword)
    cases source <;> decide
  have hread : (source.map sourceWord).toList.foldl PlayAttributes.accept ⟨offset, none⟩ =
      ⟨offset, source⟩ := by
    cases source with
    | none => rfl
    | some source => exact accept_source source _
  cases offset with
  | none => exact ⟨hsource, hread⟩
  | some span =>
    obtain ⟨n, hn, rfl⟩ := h span rfl
    have hseconds : (Span.ofSeconds n).nanoseconds / 1000000000 = n :=
      Nat.mul_div_cancel n (by decide)
    have hwords : attributeWords ⟨some (Span.ofSeconds n), source⟩ =
        s!"@{n}" :: (source.map sourceWord).toList := by
      simp only [attributeWords, Option.map_some, hseconds, Option.toList_some,
        List.singleton_append]
    rw [hwords]
    constructor
    · exact List.forall_mem_cons.mpr ⟨⟨isWord_offsetWord n, isAttribute_offsetWord n⟩, hsource⟩
    · rw [PlayAttributes.ofWords, List.foldl_cons, accept_offset hn]
      exact hread

/-- In front of attributes the words of a query are told from them. -/
theorem cutAttributes_append {query attributes : List String}
    (hattributes : ∀ word ∈ attributes, isAttribute word = true)
    (hquery : ∀ word ∈ query.getLast?, isAttribute word = false) :
    cutAttributes (query ++ attributes) = (query, attributes) := by
  have hfirst : (query ++ attributes).rdropWhile isAttribute = query := by
    rw [rdropWhile_append_of_forall hattributes, List.rdropWhile_eq_self_iff]
    intro hne
    rw [hquery _ (List.getLast?_eq_some_getLast hne)]
    exact Bool.false_ne_true
  have hboth := List.rdropWhile_append_rtakeWhile (p := isAttribute) (l := query ++ attributes)
  rw [hfirst] at hboth
  exact Prod.ext hfirst (List.append_cancel_left hboth)

theorem readQuery_append (query : List String) {attributes : PlayAttributes}
    (h : attributes.Typable) (hquery : ∀ word ∈ query.getLast?, isAttribute word = false) :
    readQuery (query ++ attributeWords attributes) =
      (if query.isEmpty then none else some (" ".intercalate query), attributes) := by
  obtain ⟨hwords, hread⟩ := attributeWords_eq h
  simp only [readQuery, cutAttributes_append (fun word hword => (hwords word hword).2) hquery,
    hread]

/-- The words of a query and of its attributes. -/
theorem isWord_of_mem_query {query : Option String} {attributes : PlayAttributes}
    (hquery : ∀ text ∈ query, IsQuery text) (h : attributes.Typable) :
    ∀ word ∈ query.toList.flatMap phraseWords ++ attributeWords attributes,
      IsWord word.toList := by
  intro word hword
  rcases List.mem_append.mp hword with hword | hword
  · obtain ⟨text, htext, hword⟩ := List.mem_flatMap.mp hword
    have hphrase := (hquery text (Option.mem_toList.mp htext)).isPhrase
    exact (phraseWords_of_isPhrase hphrase).2.1 word hword
  · exact ((attributeWords_eq h).1 word hword).1

/-- A query is read back in front of its attributes, and so are attributes without one. -/
theorem readQuery_words {query : Option String} {attributes : PlayAttributes}
    (hquery : ∀ text ∈ query, IsQuery text) (h : attributes.Typable) :
    readQuery (query.toList.flatMap phraseWords ++ attributeWords attributes) =
      (query, attributes) := by
  cases query with
  | none => exact readQuery_append [] h nofun
  | some text =>
    obtain ⟨words, last, hwords, hlast, rfl⟩ := hquery text rfl
    have hne : words ++ [last] ≠ [] := List.append_ne_nil_of_right_ne_nil _ (List.cons_ne_nil _ _)
    have hend : ∀ word ∈ (words ++ [last]).getLast?, isAttribute word = false := by
      intro word hword
      rw [List.getLast?_concat, Option.mem_some] at hword
      rw [← hword, ← Bool.not_eq_true, isAttribute_iff]
      exact hlast
    rw [Option.toList_some, List.flatMap_singleton, phraseWords_intercalate hne hwords,
      readQuery_append _ h hend]
    simp

/-! ## Places -/

theorem readNumber?_toString {n : Nat} (h : n ≤ maxWord) : readNumber? (toString n) = some n := by
  have hdigits : (toString n).toList = Nat.toDigits 10 n := by simp
  rw [readNumber?, hdigits]
  exact readNatural?_toDigits h

theorem readPlace?_toString {n : Nat} (h : n < maxWord) :
    readPlace? (toString (n + 1)) = some n := by
  rw [readPlace?, readNumber?_toString h]
  rfl

theorem readMode_toString (mode : PlayMode) :
    readMode [toString mode.index] = .ok (.mode (some mode)) := by
  have hindex : mode.index ≤ maxWord := by cases mode <;> decide
  rw [readMode, readNumber?_toString hindex, Option.bind_some, PlayMode.ofIndex?_index]

theorem readMove_toString {i j : Nat} (hi : i < maxWord) (hj : j < maxWord) :
    readMove [toString (i + 1), toString (j + 1)] = .ok (.move i j) := by
  simp only [readMove, List.map_cons, readPlace?_toString hi, readPlace?_toString hj]

theorem readRemove_toString {index : Nat} (h : index < maxWord) :
    readRemove [toString (index + 1)] = .ok (.remove index) := by
  simp only [readRemove, List.map_cons, readPlace?_toString h]

theorem readStatus_toString {limit : Nat} (h : limit ≤ maxWord) :
    readStatus [toString limit] = .ok (.status limit) := by
  simp only [readStatus, readNumber?_toString h]

theorem readPlaylist_phraseWords {target : String} (h : IsPhrase target) (replace : Bool) :
    readPlaylist ((if replace then "set" else "add") :: phraseWords target) =
      .ok (.playlist replace target) := by
  obtain ⟨hne, -, htarget⟩ := phraseWords_of_isPhrase h
  have hadd : lowercase "add" = "add" :=
    lowercase_of_sameAsciiLetters (by decide) (beq_self_eq_true _)
  have hset : lowercase "set" = "set" :=
    lowercase_of_sameAsciiLetters (by decide) (beq_self_eq_true _)
  cases hphrase : phraseWords target with
  | nil => exact absurd hphrase hne
  | cons word rest =>
    rw [hphrase] at htarget
    cases replace <;> simp [readPlaylist, htarget, hadd, hset]

/-! ## Each command -/

/-- The words of a command are its name and some others, and it is read back from them. -/
structure ReadBack (command : Command) (name : String) (arguments : List String) : Prop where
  spelled : command.words = name :: arguments
  isName : IsName name
  areWords : ∀ word ∈ arguments, IsWord word.toList
  read : ofWords? name arguments = some (.ok command)

/-- A name with nothing behind it. -/
theorem ReadBack.bare {command : Command} {name : String} (hwords : command.words = [name])
    (hname : IsName name) (hread : ofWords? name [] = some (.ok command)) :
    command.ReadBack name [] :=
  ⟨hwords, hname, List.forall_mem_nil _, hread⟩

/-- A name with one word behind it. -/
theorem ReadBack.single {command : Command} {name word : String}
    (hwords : command.words = [name, word]) (hname : IsName name) (hword : IsWord word.toList)
    (hread : ofWords? name [word] = some (.ok command)) : command.ReadBack name [word] :=
  ⟨hwords, hname, List.forall_mem_singleton.mpr hword, hread⟩

/-- A name with two words behind it. -/
theorem ReadBack.pair {command : Command} {name first second : String}
    (hwords : command.words = [name, first, second]) (hname : IsName name)
    (hfirst : IsWord first.toList) (hsecond : IsWord second.toList)
    (hread : ofWords? name [first, second] = some (.ok command)) :
    command.ReadBack name [first, second] :=
  ⟨hwords, hname, List.forall_mem_cons.mpr ⟨hfirst, List.forall_mem_singleton.mpr hsecond⟩, hread⟩

theorem readBack_play {query : Option String} {attributes : PlayAttributes}
    (hquery : ∀ text ∈ query, IsQuery text) (h : attributes.Typable) :
    (play query attributes).ReadBack "play"
      (query.toList.flatMap phraseWords ++ attributeWords attributes) where
  spelled := rfl
  isName := by decide
  areWords := isWord_of_mem_query hquery h
  read := by
    have hplay (words : List String) : ofWords? "play" words =
        some (.ok (.play (readQuery words).1 (readQuery words).2)) := rfl
    rw [hplay, readQuery_words hquery h]

theorem readBack_add {query : String} {attributes : PlayAttributes} (hquery : IsQuery query)
    (h : attributes.Typable) :
    (add query attributes).ReadBack "add" (phraseWords query ++ attributeWords attributes) := by
  have hsome : ∀ text ∈ some query, IsQuery text := by
    rintro _ ⟨⟩
    exact hquery
  have hwords := isWord_of_mem_query hsome h
  have hread := readQuery_words hsome h
  rw [Option.toList_some, List.flatMap_singleton] at hwords hread
  have hadd : readAdd (phraseWords query ++ attributeWords attributes) =
      .ok (.add query attributes) := by
    rw [readAdd, hread]
  exact ⟨rfl, by decide, hwords, congrArg some hadd⟩

theorem readBack_playlist {target : String} (h : IsPhrase target) (replace : Bool) :
    (playlist replace target).ReadBack "playlist"
      ((if replace then "set" else "add") :: phraseWords target) where
  spelled := rfl
  isName := by decide
  areWords := by
    refine List.forall_mem_cons.mpr ⟨?_, (phraseWords_of_isPhrase h).2.1⟩
    cases replace <;> decide
  read := congrArg some (readPlaylist_phraseWords h replace)

/-- Every command that can be typed is read back from its words. -/
theorem exists_readBack {command : Command} (h : command.Typable) :
    ∃ name arguments, command.ReadBack name arguments := by
  cases command with
  | play query attributes => exact ⟨_, _, readBack_play h.1 h.2⟩
  | add query attributes => exact ⟨_, _, readBack_add h.1 h.2⟩
  | next => exact ⟨"next", _, .bare rfl (by decide) rfl⟩
  | previous => exact ⟨"previous", _, .bare rfl (by decide) rfl⟩
  | stop => exact ⟨"stop", _, .bare rfl (by decide) rfl⟩
  | pause => exact ⟨"pause", _, .bare rfl (by decide) rfl⟩
  | mode chosen =>
    cases chosen with
    | none => exact ⟨"mode", _, .bare rfl (by decide) rfl⟩
    | some mode =>
      have hread := congrArg some (readMode_toString mode)
      exact ⟨"mode", _, .single rfl (by decide) (isWord_toString _) hread⟩
  | move i j =>
    have hread := congrArg some (readMove_toString h.1 h.2)
    exact ⟨"move", _, .pair rfl (by decide) (isWord_toString _) (isWord_toString _) hread⟩
  | remove index =>
    have hread := congrArg some (readRemove_toString h)
    exact ⟨"rm", _, .single rfl (by decide) (isWord_toString _) hread⟩
  | shuffle => exact ⟨"shuffle", _, .bare rfl (by decide) rfl⟩
  | clear => exact ⟨"clear", _, .bare rfl (by decide) rfl⟩
  | status limit =>
    have hread := congrArg some (readStatus_toString h)
    exact ⟨"ls", _, .single rfl (by decide) (isWord_toString _) hread⟩
  | exportList name => exact ⟨"export", _, .single rfl (by decide) h rfl⟩
  | importList name append =>
    cases append with
    | false => exact ⟨"import", _, .single rfl (by decide) h rfl⟩
    | true => exact ⟨"import", _, .pair rfl (by decide) h (by decide) rfl⟩
  | lists start =>
    cases start with
    | none => exact ⟨"lists", _, .bare rfl (by decide) rfl⟩
    | some name => exact ⟨"lists", _, .single rfl (by decide) (h name rfl) rfl⟩
  | playlist replace target => exact ⟨_, _, readBack_playlist h replace⟩
  | loginQr => exact ⟨"login", _, .single rfl (by decide) (by decide) rfl⟩
  | loginSms phone code =>
    cases code with
    | none => exact ⟨"login", _, .pair rfl (by decide) (by decide) h.1 rfl⟩
    | some code =>
      refine ⟨"login", ["sms", phone, code], rfl, by decide, ?_, rfl⟩
      simp only [List.forall_mem_cons]
      exact ⟨by decide, h.1, h.2 code rfl, List.forall_mem_nil _⟩
  | join => exact ⟨"join", _, .bare rfl (by decide) rfl⟩
  | leave => exact ⟨"leave", _, .bare rfl (by decide) rfl⟩
  | help => exact ⟨"help", _, .bare rfl (by decide) rfl⟩

/-! ## The message -/

theorem behind?_append (sign text : List Char) : behind? sign (sign ++ text) = some text := by
  rw [behind?, if_pos (List.isPrefixOf_iff_prefix.mpr (List.prefix_append sign text)),
    List.drop_left]

/-- In front of a text that is trimmed, a sign that does not begin with blank space can stand. -/
theorem isTrimmed_append {sign text : List Char} (hsign : ∀ c ∈ sign.head?, isBlank c = false)
    (hne : text ≠ []) (htext : IsTrimmed text) : IsTrimmed (sign ++ text) := by
  constructor
  · cases sign with
    | nil => exact htext.1
    | cons c sign => exact hsign
  · rw [List.getLast?_append_of_ne_nil _ hne]
    exact htext.2

theorem spelling_eq (sign : String) (command : Command) :
    spelling sign command =
      String.ofList (sign.toList ++ [' '].intercalate (command.words.map String.toList)) := by
  rw [spelling, ← String.toList_inj]
  simp [String.toList_intercalate]

/-- The plain spelling has single spaces between the words, and nothing around them. -/
theorem typed_spelling (sign : String) {command : Command} {name : String}
    {arguments : List String} (hwords : command.words = name :: arguments) :
    Typed sign command (spelling sign command) := by
  have hne : (name :: arguments).map String.toList ≠ [] := List.cons_ne_nil _ _
  have htyped : Typed sign command (String.ofList _) :=
    .intro hwords (beq_self_eq_true _) (spaced_intercalate hne) (List.forall_mem_nil _)
      (List.forall_mem_nil _)
  rwa [List.nil_append, List.append_nil, ← hwords, ← spelling_eq] at htyped

/-- Every command that can be typed is understood exactly, if the sign does not begin with blank
space: the plain spelling of the command is a message that spells it, and whatever message spells
the command is read as that command. -/
theorem typed_is_understood (sign : String) (hsign : ∀ c ∈ sign.toList.head?, isBlank c = false)
    (command : Command) (h : command.Typable) :
    Typed sign command (spelling sign command) ∧
      ∀ message, Typed sign command message → read sign message = some (.ok command) := by
  obtain ⟨name, arguments, hwords, hname, harguments, hread⟩ := exists_readBack h
  constructor
  · exact typed_spelling sign hwords
  · rintro _ (@⟨_, typed, _, before, text, after, hwords', htyped, htext, hbefore, hafter⟩)
    obtain ⟨rfl, rfl⟩ := List.cons.inj (hwords.symm.trans hwords')
    have hall : ∀ word ∈ (typed :: arguments).map String.toList, IsWord word := by
      rw [List.forall_mem_map]
      exact List.forall_mem_cons.mpr ⟨isWord_of_sameAsciiLetters hname htyped, harguments⟩
    -- Trimming stops at the sign, which need not be made of words, and at the last of the words.
    obtain ⟨hne, htrimmed⟩ := isTrimmed_of_spaced htext hall
    have htrim := trimmed_between (isTrimmed_append hsign hne htrimmed) (by simp [hne]) hbefore
      hafter
    rw [read, String.toList_ofList, htrim, behind?_append]
    simp only [Option.bind_eq_bind, Option.bind_some, words_of_spaced htext hall]
    simp [lowercase_of_sameAsciiLetters hname htyped, hread]

/-- A song by its title and artist from a certain second on, in capitals and with other blank space
than the plain spelling has. -/
theorem typed_is_understood_of_song :
    let command := Command.play (some "晴天 周杰伦") ⟨some (Span.ofSeconds 90), some .catalog⟩
    command.Typable ∧ Typed "!" command "\u3000!PLAY  晴天\u3000周杰伦 @90\t#n " ∧
      read "!" "\u3000!PLAY  晴天\u3000周杰伦 @90\t#n " = some (.ok command) := by
  intro command
  have htypable : command.Typable := by
    constructor
    · rintro _ ⟨⟩
      have hwords : ∀ word ∈ ["晴天", "周杰伦"], IsWord word.toList :=
        List.forall_mem_cons.mpr ⟨by decide, List.forall_mem_singleton.mpr (by decide)⟩
      exact ⟨["晴天"], "周杰伦", hwords, by decide, by decide⟩
    · rintro _ ⟨⟩
      exact ⟨90, by decide, rfl⟩
  have hwords : command.words = ["play", "晴天", "周杰伦", "@90", "#n"] := by decide
  have htext : Spaced (["PLAY", "晴天", "周杰伦", "@90", "#n"].map String.toList)
      ("PLAY".toList ++ [' ', ' '] ++ ("晴天".toList ++ ['\u3000'] ++ ("周杰伦".toList ++ [' '] ++
        ("@90".toList ++ ['\t'] ++ "#n".toList)))) :=
    .cons (List.cons_ne_nil _ _) (List.all_eq_true.mp rfl)
      (.cons (List.cons_ne_nil _ _) (List.all_eq_true.mp rfl)
        (.cons (List.cons_ne_nil _ _) (List.all_eq_true.mp rfl)
          (.cons (List.cons_ne_nil _ _) (List.all_eq_true.mp rfl) (.last _))))
  have htyped : Typed "!" command "\u3000!PLAY  晴天\u3000周杰伦 @90\t#n " := by
    have hbefore : ∀ c ∈ ['\u3000'], isBlank c = true := List.all_eq_true.mp rfl
    have hafter : ∀ c ∈ [' '], isBlank c = true := List.all_eq_true.mp rfl
    convert Typed.intro hwords (by decide) htext hbefore hafter using 1
    decide
  have hsign : ∀ c ∈ "!".toList.head?, isBlank c = false := by
    rintro _ ⟨⟩
    rfl
  exact ⟨htypable, htyped, (typed_is_understood "!" hsign command htypable).2 _ htyped⟩

end Command

end Jukebox
