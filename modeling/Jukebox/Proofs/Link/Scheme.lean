import Jukebox.Lookup
import Jukebox.Proofs.Text
import Jukebox.Proofs.Web

/-!
# Addresses that are taken for files

A link that answers becomes a track, and whether the track is played from the web or opened as a
file is read off its link again.  The first recogniser reads the link as an address: controls and
spaces around it and tabs and line breaks in it do not count, and behind the colon of the scheme any
slashes may follow, or none.  The second compares the beginning of the text with `http://` and
`https://`.  Both see the same scheme, so they differ on an address exactly if something other than
two slashes follows its colon or something that does not count stands before them.  Such an address
is found because it answers, and its track is then opened as a file.
-/

namespace Jukebox

open Jukebox.Text

namespace Address

variable {c : Char} {cs before after scheme rest : List Char} {names : List Char → Bool}

/-! ## Schemes -/

/-- One of the two schemes of the web, in any case of letters. -/
def IsScheme (scheme : List Char) : Prop :=
  scheme.map Char.toLower = "http".toList ∨ scheme.map Char.toLower = "https".toList

instance (scheme : List Char) : Decidable (IsScheme scheme) :=
  inferInstanceAs (Decidable (_ ∨ _))

theorem IsScheme.isLetter (h : IsScheme scheme) (hc : c ∈ scheme) : 65 ≤ c.toNat := by
  have hlower : c.toLower ∈ "https".toList := by
    have hmem := List.mem_map_of_mem (f := Char.toLower) hc
    rcases h with h | h
    · rw [h] at hmem
      exact (List.prefix_append "http".toList ['s']).subset hmem
    · rwa [h] at hmem
  have hhigh : ∀ d ∈ "https".toList, 65 ≤ d.toNat := List.forall_iff_forall_mem.mp (by decide)
  have hbound := hhigh _ hlower
  rcases toLower_cases c with hself | ⟨hlow, -, -⟩
  · rwa [hself] at hbound
  · exact hlow

theorem IsScheme.colon_not_mem (h : IsScheme scheme) : ':' ∉ scheme := by
  intro hc
  exact absurd (h.isLetter hc) (by decide)

theorem afterScheme?_eq_some_iff :
    afterScheme? cs = some rest ↔ ∃ scheme, IsScheme scheme ∧ cs = scheme ++ ':' :: rest := by
  constructor
  · intro h
    have hsplit := List.takeWhile_append_dropWhile (p := (· != ':')) (l := cs)
    unfold afterScheme? at h
    dsimp only at h
    split at h
    · next after hdrop =>
      split at h
      · next hscheme =>
        cases h
        rw [hdrop] at hsplit
        simp only [Bool.or_eq_true, beq_iff_eq] at hscheme
        exact ⟨_, hscheme, hsplit.symm⟩
      · cases h
    · cases h
  · rintro ⟨scheme, hscheme, rfl⟩
    have hother : ∀ c ∈ scheme, (c != ':') = true := by
      intro c hc
      simp only [bne_iff_ne]
      rintro rfl
      exact hscheme.colon_not_mem hc
    have htake : (scheme ++ ':' :: rest).takeWhile (· != ':') = scheme := by
      rw [List.takeWhile_append_of_pos hother]
      simp
    have hdrop : (scheme ++ ':' :: rest).dropWhile (· != ':') = ':' :: rest := by
      rw [List.dropWhile_append_of_pos hother]
      simp
    have hlower : (scheme.map Char.toLower == "http".toList ||
        scheme.map Char.toLower == "https".toList) = true := by
      simp only [Bool.or_eq_true, beq_iff_eq]
      exact hscheme
    simp only [afterScheme?, htake, hdrop, hlower, if_true]

/-! ## Characters that do not count -/

/-- Characters in front that are no controls all count. -/
theorem significant_append (hne : before ≠ []) (h : ∀ c ∈ before, isControl c = false)
    (rest : List Char) : ∃ after, significant (before ++ rest) = before ++ after := by
  have hstart : (before ++ rest).dropWhile isControl = before ++ rest := by
    cases before with
    | nil => exact absurd rfl hne
    | cons c before => exact List.dropWhile_cons_of_neg (by simp [h c List.mem_cons_self])
  have hend : ∃ after, (before ++ rest).rdropWhile isControl = before ++ after := by
    have hself : before.reverse.dropWhile isControl = before.reverse :=
      List.dropWhile_eq_self_iff.mpr fun hlength => by
        rw [h _ (List.mem_reverse.mp (List.getElem_mem hlength))]
        exact Bool.false_ne_true
    rw [List.rdropWhile, List.reverse_append, List.dropWhile_append, hself]
    split
    · exact ⟨[], by simp⟩
    · exact ⟨_, by rw [List.reverse_append, List.reverse_reverse]⟩
  obtain ⟨after, hafter⟩ := hend
  have hkept : before.filter (fun c => c != '\t' && c != '\n' && c != '\r') = before := by
    rw [List.filter_eq_self]
    intro c hc
    have hcontrol := h c hc
    simp only [Bool.and_eq_true, bne_iff_ne]
    refine ⟨⟨?_, ?_⟩, ?_⟩ <;> rintro rfl <;> cases hcontrol
  refine ⟨after.filter fun c => c != '\t' && c != '\n' && c != '\r', ?_⟩
  unfold significant
  rw [hstart]
  change ((before ++ rest).rdropWhile isControl).filter _ = _
  rw [hafter, List.filter_append, hkept]

/-- Signs stand for themselves in lowercase, and for nothing else. -/
theorem eq_of_map_toLower {text signs : List Char} (h : text.map Char.toLower = signs)
    (hsigns : ∀ a ∈ signs, a.toNat < 97) : text = signs := by
  induction text generalizing signs with
  | nil => exact h
  | cons c text ih =>
    subst h
    obtain ⟨hc, htext⟩ := List.forall_mem_cons.mp hsigns
    rw [List.map_cons, ← ih rfl htext]
    rcases toLower_cases c with hself | ⟨hlow, -, hupper⟩
    · rw [hself]
    · omega

theorem prefix_map_toLower_iff {name : List Char} :
    name ++ "://".toList <+: cs.map Char.toLower ↔
      ∃ scheme, scheme.map Char.toLower = name ∧ scheme ++ "://".toList <+: cs := by
  constructor
  · rintro ⟨after, heq⟩
    obtain ⟨text, rest, rfl, htext, -⟩ := List.map_eq_append_iff.mp heq.symm
    obtain ⟨scheme, signs, rfl, hscheme, hsigns⟩ := List.map_eq_append_iff.mp htext
    have hlow : ∀ a ∈ "://".toList, a.toNat < 97 := List.forall_iff_forall_mem.mp (by decide)
    obtain rfl := eq_of_map_toLower hsigns hlow
    exact ⟨scheme, hscheme, List.prefix_append _ _⟩
  · rintro ⟨scheme, rfl, hprefix⟩
    have hlower := hprefix.map Char.toLower
    rwa [List.map_append] at hlower

theorem prefix_lowercased_iff {name : List Char} (h : ∀ a ∈ name, IsPlain a) :
    name ++ "://".toList <+: lowercased cs ↔
      ∃ scheme, scheme.map Char.toLower = name ∧ scheme ++ "://".toList <+: cs := by
  have hsigns : ∀ a ∈ "://".toList, IsPlain a := List.forall_iff_forall_mem.mp (by decide)
  have hplain : ∀ a ∈ name ++ "://".toList, IsPlain a := List.forall_mem_append.mpr ⟨h, hsigns⟩
  rw [lowercased, prefix_lowercaseAfter_iff hplain, prefix_map_toLower_iff]

theorem isHttp_iff {link : String} :
    isHttp link = true ↔ ∃ scheme, IsScheme scheme ∧ scheme ++ "://".toList <+: link.toList := by
  have hhttp : ∀ a ∈ "http".toList, IsPlain a := List.forall_iff_forall_mem.mp (by decide)
  have hhttps : ∀ a ∈ "https".toList, IsPlain a := List.forall_iff_forall_mem.mp (by decide)
  unfold isHttp
  simp only [Bool.or_eq_true, List.isPrefixOf_iff_prefix, IsScheme, or_and_right, exists_or]
  exact or_congr (prefix_lowercased_iff hhttp) (prefix_lowercased_iff hhttps)

/-! ## Addresses -/

/-- The characters of an address that count begin with its scheme and a colon. -/
theorem exists_scheme {link : String} (h : isWeb link names = true) :
    ∃ scheme rest, IsScheme scheme ∧ significant link.toList = scheme ++ ':' :: rest := by
  unfold isWeb at h
  split at h
  · cases h
  · next rest hafter =>
    obtain ⟨scheme, hscheme, heq⟩ := afterScheme?_eq_some_iff.mp hafter
    exact ⟨scheme, rest, hscheme, heq⟩

theorem IsScheme.isControl_eq_false (h : IsScheme scheme) :
    ∀ c ∈ scheme ++ "://".toList, isControl c = false := by
  intro c hc
  rcases List.mem_append.mp hc with hc | hc
  · have hletter := h.isLetter hc
    simp only [isControl, decide_eq_false_iff_not]
    omega
  · have hsigns : ∀ d ∈ "://".toList, isControl d = false :=
      List.forall_iff_forall_mem.mp (by decide)
    exact hsigns c hc

/-- Two texts that go on with a colon behind their schemes agree up to it and behind it. -/
theorem IsScheme.append_inj {other : List Char} (h : IsScheme scheme) (hother : IsScheme other)
    (heq : scheme ++ ':' :: before = other ++ ':' :: after) : scheme = other ∧ before = after := by
  have hcut := cutAt_append h.colon_not_mem before
  rw [heq, cutAt_append hother.colon_not_mem] at hcut
  simpa [eq_comm] using hcut

/-- What begins with a scheme, a colon and two slashes does so if only characters count. -/
theorem significant_of_begins (hscheme : IsScheme scheme)
    (h : scheme ++ "://".toList <+: cs) :
    ∃ after, significant cs = scheme ++ ':' :: ("//".toList ++ after) := by
  obtain ⟨rest, rfl⟩ := h
  obtain ⟨after, hafter⟩ := significant_append (by simp) hscheme.isControl_eq_false rest
  exact ⟨after, by rw [hafter]; simp⟩

/-- An address is known as one by its beginning exactly if it begins with its scheme, a colon and
two slashes. -/
theorem isHttp_iff_begins {link : String} (hscheme : IsScheme scheme)
    (hsignificant : significant link.toList = scheme ++ ':' :: rest) :
    isHttp link = true ↔ scheme ++ "://".toList <+: link.toList := by
  rw [isHttp_iff]
  constructor
  · rintro ⟨other, hother, hprefix⟩
    obtain ⟨after, hafter⟩ := significant_of_begins hother hprefix
    obtain ⟨rfl, -⟩ := hother.append_inj hscheme (hafter.symm.trans hsignificant)
    exact hprefix
  · intro hprefix
    exact ⟨scheme, hscheme, hprefix⟩

theorem significant_sublist (cs : List Char) : (significant cs).Sublist cs := by
  have hend := (List.rdropWhile_prefix isControl (cs.dropWhile isControl)).sublist
  exact List.filter_sublist.trans (hend.trans (List.dropWhile_sublist _))

/-- There are two ways in which an address does not begin like that: not two slashes follow its
colon, or characters that do not count stand in front of them. -/
theorem prefix_iff (hscheme : IsScheme scheme)
    (hsignificant : significant cs = scheme ++ ':' :: rest) :
    scheme ++ "://".toList <+: cs ↔
      "//".toList <+: rest ∧ ∀ c ∈ cs.take (scheme.length + 3), isControl c = false := by
  have hlength : (scheme ++ "://".toList).length = scheme.length + 3 := List.length_append
  constructor
  · intro hprefix
    obtain ⟨after, hafter⟩ := significant_of_begins hscheme hprefix
    obtain ⟨-, rfl⟩ := hscheme.append_inj hscheme (hsignificant.symm.trans hafter)
    have htake := List.prefix_iff_eq_take.mp hprefix
    rw [hlength] at htake
    rw [← htake]
    exact ⟨List.prefix_append _ _, hscheme.isControl_eq_false⟩
  · rintro ⟨⟨after, rfl⟩, hcontrol⟩
    have hlong : scheme.length + 3 ≤ cs.length := by
      have hle := (significant_sublist cs).length_le
      rw [hsignificant, List.length_append, List.length_cons, List.length_append] at hle
      have htwo : "//".toList.length = 2 := rfl
      omega
    have hne : cs.take (scheme.length + 3) ≠ [] := by
      rw [← List.length_pos_iff, List.length_take]
      omega
    obtain ⟨after', hafter⟩ := significant_append hne hcontrol (cs.drop (scheme.length + 3))
    rw [List.take_append_drop, hsignificant] at hafter
    have hsame : scheme ++ "://".toList ++ after = cs.take (scheme.length + 3) ++ after' := by
      rw [← hafter]
      simp
    obtain ⟨htake, -⟩ := List.append_inj hsame (by rw [hlength, List.length_take]; omega)
    rw [htake]
    exact List.take_prefix _ _

/-- No address is blank. -/
theorem isEmpty_trim_of_isWeb {link : String} (h : isWeb link names = true) :
    (trim link).isEmpty = false := by
  obtain ⟨scheme, rest, -, hsignificant⟩ := exists_scheme h
  have hcolon : ':' ∈ link.toList := (significant_sublist _).mem (by simp [hsignificant])
  rw [← Bool.not_eq_true, String.isEmpty_iff, trim, ← String.toList_inj, String.toList_ofList]
  intro hempty
  exact absurd (trimmed_eq_nil_iff.mp hempty ':' hcolon) (by decide)

end Address

namespace Track

theorem source_direct {link : String} (hne : link ≠ "") :
    (direct link).source = if isHttp link then .url else .localFile := by
  have hkey : (direct link).directKey? = some link := by
    simp [direct, directKey?, nonEmpty?, hne]
  rw [source, hkey]

end Track

namespace Lookup

variable {isFile : String → Bool} {web : Web} {query link : String} {track : Track}
  {sent : List WebRequest}

/-- The question that is put to an address to see whether it answers. -/
def probe (link : String) : WebRequest := ⟨.head, link, [], false, []⟩

/-- Only an address can answer. -/
theorem isWeb_of_answers {body : String} (h : web.Answers sent (probe link) body) :
    Address.isWeb link web.names = true := by
  obtain ⟨hsendable, -⟩ := h
  simp only [WebRequest.isSendable, Bool.and_eq_true] at hsendable
  exact hsendable.1

theorem run_answers (web : Web) (link : String) (sent : List WebRequest) :
    ((answers web link).run sent).1 = true ↔ ∃ body, web.Answers sent (probe link) body := by
  unfold answers
  by_cases hweb : Address.isWeb link web.names = true
  · rw [if_pos hweb]
    change (((probe link).send web).run sent).1.isSome = true ↔ _
    by_cases hanswers : ∃ body, web.Answers sent (probe link) body
    · obtain ⟨body, hbody⟩ := hanswers
      rw [WebRequest.run_send_of_answers hbody]
      exact ⟨fun _ => ⟨body, hbody⟩, fun _ => rfl⟩
    · obtain ⟨arrived, -, hsend⟩ := WebRequest.run_send_of_not_answers (not_exists.mp hanswers)
      rw [hsend]
      exact ⟨fun h => (by cases h), fun h => absurd h hanswers⟩
  · rw [if_neg hweb]
    refine ⟨fun h => (by cases h), ?_⟩
    rintro ⟨body, hbody⟩
    exact absurd (isWeb_of_answers hbody) hweb

/-- A link to no file is found exactly if it is an address that answers. -/
theorem direct?_eq_some_iff (hlink : Link.plain? query = some link) (hfile : isFile link = false) :
    ((direct? isFile web query).run sent).1 = some track ↔
      track = .direct link ∧ ∃ body, web.Answers sent (probe link) body := by
  rw [← run_answers]
  unfold direct?
  rw [hlink]
  dsimp only
  by_cases hblank : (Text.trim link).isEmpty = true
  · rw [if_pos hblank]
    refine ⟨fun h => (by cases h), ?_⟩
    rintro ⟨-, hanswers⟩
    obtain ⟨body, hbody⟩ := (run_answers _ _ _).mp hanswers
    rw [Address.isEmpty_trim_of_isWeb (isWeb_of_answers hbody)] at hblank
    cases hblank
  · rw [if_neg hblank, hfile, if_neg Bool.false_ne_true, StateT.run_bind]
    generalize (answers web link).run sent = answer
    obtain ⟨_ | _, arrived⟩ := answer
    · exact ⟨fun h => (by cases h), fun h => (by cases h.2)⟩
    · change some (Track.direct link) = some track ↔ _
      rw [Option.some_inj, eq_comm, and_iff_left rfl]

/-- Whatever names hosts may have: a track that is found because its link is an address that answers
is played from the web exactly if the link is `http://` or `https://` with something behind it.  If
not two slashes follow the scheme, or a character that does not count stands before their end, it is
taken for a file. -/
theorem played_from_web_iff {names : List Char → Bool} {link : String}
    (hweb : Address.isWeb link names = true) :
    ∃ scheme rest, Address.IsScheme scheme ∧
      Address.significant link.toList = scheme ++ ':' :: rest ∧
      (isHttp link = true ↔ "//".toList <+: rest ∧
        ∀ c ∈ link.toList.take (scheme.length + 3), Address.isControl c = false) ∧
      ∀ isFile web query sent track, Link.plain? query = some link → isFile link = false →
        ((direct? isFile web query).run sent).1 = some track →
        track = .direct link ∧ (track.source = .url ↔ isHttp link = true) ∧
          (track.source = .localFile ↔ isHttp link = false) := by
  obtain ⟨scheme, rest, hscheme, hsignificant⟩ := Address.exists_scheme hweb
  refine ⟨scheme, rest, hscheme, hsignificant, ?_, ?_⟩
  · rw [Address.isHttp_iff_begins hscheme hsignificant, Address.prefix_iff hscheme hsignificant]
  · intro isFile web query sent track hlink hfile hfound
    obtain ⟨rfl, -⟩ := (direct?_eq_some_iff hlink hfile).mp hfound
    have hne : link ≠ "" := by
      rintro rfl
      cases hweb
    rw [Track.source_direct hne]
    cases isHttp link <;> simp

/-- An address with one slash answers, and its track is opened as a file. -/
theorem played_from_web_iff_of_one_slash :
    Address.isWeb "http:/example.com/a.mp3" = true ∧
      ((direct? (fun _ => false) { delivers := fun _ _ => .answered 200 "" }
        "http:/example.com/a.mp3").run []).1 = some (.direct "http:/example.com/a.mp3") ∧
      (Track.direct "http:/example.com/a.mp3").source = .localFile := by
  have hweb : Address.isWeb "http:/example.com/a.mp3" = true := by decide +kernel
  have hfound : ((direct? (fun _ => false) { delivers := fun _ _ => .answered 200 "" }
      "http:/example.com/a.mp3").run []).1 = some (.direct "http:/example.com/a.mp3") := by
    decide +kernel
  obtain ⟨scheme, rest, -, -, -, hplayed⟩ := played_from_web_iff hweb
  obtain ⟨-, -, hfile⟩ := hplayed (fun _ => false) { delivers := fun _ _ => .answered 200 "" }
    "http:/example.com/a.mp3" [] _ (by decide +kernel) rfl hfound
  exact ⟨hweb, hfound, hfile.mpr (by decide +kernel)⟩

end Lookup

end Jukebox
