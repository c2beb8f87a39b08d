import Mathlib.Data.List.Forall2
import Jukebox.Session.Cookie
import Jukebox.Proofs.Session.Pairs
import Jukebox.Proofs.Text

/-!
# What a cookie header says

The text of a header says a row of pairs, one for each part between its semicolons.  Of these the
cookie keeps the pairs that belong to the session, each name once.  All that is left is clean: it
can be written down and read back (`Cookie.parse_format`).  So a cookie that was read is the normal
form of its header (`Cookie.header_normal_form`), and laying headers over each other is laying
their rows over each other (`Cookie.merging_is_lawful`).
-/

namespace Jukebox

namespace Cookie

open Jukebox.Text Pairs

variable {raw : String} {pair : String × String} {part : List Char} {cookie pairs : Pairs}

/-! ## From the text to the pairs -/

/-- A part of a header says a name and a value.  The value follows the first `=`; where there is
none, it is empty.  Blank characters around the two do not count. -/
inductive Spells : List Char → String × String → Prop
  | pair {name : List Char} (h : '=' ∉ name) (value : List Char) :
      Spells (name ++ '=' :: value) (String.ofList (trimmed name), String.ofList (trimmed value))
  | bare {name : List Char} (h : '=' ∉ name) : Spells name (String.ofList (trimmed name), "")

/-- The parts between the semicolons of a header say these pairs, in this order. -/
def Tells (raw : String) (pairs : Pairs) : Prop :=
  ∃ parts : List (List Char), parts ≠ [] ∧ (∀ part ∈ parts, ';' ∉ part) ∧
    [';'].intercalate parts = raw.toList ∧ List.Forall₂ Spells parts pairs

/-- What the parts between the semicolons say. -/
def told (raw : String) : Pairs := (pieces (· == ';') raw.toList).map readPair

theorem parse_eq (raw : String) : parse raw = override [] ((told raw).filter isKept) := rfl

theorem spells_iff : Spells part pair ↔ readPair part = pair := by
  constructor
  · intro h
    cases h with
    | pair h value => rw [readPair, cutAt_append h]
    | bare h => rw [readPair, cutAt_eq_none_iff.mpr h]
  · rintro rfl
    unfold readPair
    split
    · next name value hcut =>
      obtain ⟨hname, rfl⟩ := eq_append_of_cutAt hcut
      exact .pair hname value
    · next hcut => exact .bare (cutAt_eq_none_iff.mp hcut)

theorem tells_iff : Tells raw pairs ↔ pairs = told raw := by
  have hspells : ∀ parts : List (List Char),
      List.Forall₂ Spells parts pairs ↔ pairs = parts.map readPair := by
    intro parts
    induction parts generalizing pairs with
    | nil => rw [List.forall₂_nil_left_iff, List.map_nil]
    | cons part parts ih =>
      rw [List.forall₂_cons_left_iff, List.map_cons]
      simp only [spells_iff, ih]
      constructor
      · rintro ⟨pair, rest, rfl, rfl, rfl⟩
        rfl
      · rintro rfl
        exact ⟨_, _, rfl, rfl, rfl⟩
  constructor
  · rintro ⟨parts, hne, hparts, htext, hpairs⟩
    rw [(hspells parts).mp hpairs, eq_pieces_iff.mpr ⟨hne, hparts, htext⟩, told]
  · rintro rfl
    obtain ⟨hne, hparts, htext⟩ := eq_pieces_iff.mp (Eq.refl (pieces (· == ';') raw.toList))
    exact ⟨_, hne, hparts, htext, (hspells _).mpr rfl⟩

/-! ## Clean pairs -/

/-- A pair that belongs to the session, and that a header can say. -/
structure IsClean (pair : String × String) : Prop where
  name_ne : pair.1 ≠ ""
  /-- In no case of its letters is the name that of an attribute. -/
  not_attribute : ∀ known ∈ attributeNames, pair.1.toList.map Char.toLower ≠ known.toList
  name_free : '=' ∉ pair.1.toList ∧ ';' ∉ pair.1.toList
  value_free : ';' ∉ pair.2.toList
  name_trimmed : IsTrimmed pair.1.toList
  value_trimmed : IsTrimmed pair.2.toList

theorem isKept_iff :
    isKept pair = true ↔ pair.1 ≠ "" ∧
      ∀ known ∈ attributeNames, pair.1.toList.map Char.toLower ≠ known.toList := by
  have hlower : ∀ known ∈ attributeNames, known.toList.map Char.toLower = known.toList := by
    decide
  have hattribute : isAttribute pair.1 = false ↔
      ∀ known ∈ attributeNames, pair.1.toList.map Char.toLower ≠ known.toList := by
    rw [isAttribute, List.any_eq_false]
    refine forall₂_congr fun known hknown => ?_
    rw [sameAsciiLetters, hlower known hknown, beq_iff_eq, ne_comm]
  rw [isKept, Bool.and_eq_true, Bool.not_eq_true', Bool.not_eq_true', hattribute,
    String.isEmpty_eq_false_iff]

theorem isClean_of_spells (h : Spells part pair) (hpart : ';' ∉ part) (hkept : isKept pair = true) :
    IsClean pair := by
  obtain ⟨hne, hattribute⟩ := isKept_iff.mp hkept
  have htrimmed : ∀ cs : List Char, IsTrimmed (String.ofList (trimmed cs)).toList := by
    intro cs
    rw [String.toList_ofList]
    exact isTrimmed_trimmed cs
  have hfree : ∀ {c : Char} {cs : List Char}, c ∉ cs → c ∉ (String.ofList (trimmed cs)).toList := by
    intro c cs hc
    rw [String.toList_ofList]
    exact fun hmem => hc ((trimmed_sublist cs).subset hmem)
  cases h with
  | @pair name h value =>
    rw [List.mem_append, List.mem_cons, not_or, not_or] at hpart
    exact ⟨hne, hattribute, ⟨hfree h, hfree hpart.1⟩, hfree hpart.2.2, htrimmed _, htrimmed _⟩
  | bare h =>
    exact ⟨hne, hattribute, ⟨hfree h, hfree hpart⟩, List.not_mem_nil, htrimmed _,
      ⟨by simp, by simp⟩⟩

theorem isClean_of_mem_parse (h : pair ∈ parse raw) : IsClean pair := by
  rw [parse_eq] at h
  rcases mem_of_mem_override h with hnil | hmem
  · cases hnil
  · obtain ⟨htold, hkept⟩ := List.mem_filter.mp hmem
    obtain ⟨part, hpart, hread⟩ := List.mem_map.mp htold
    exact isClean_of_spells (spells_iff.mpr hread) (not_mem_of_mem_pieces hpart) hkept

theorem nodup_parse (raw : String) : (parse raw).names.Nodup :=
  nodup_override List.nodup_nil

/-! ## From the pairs to the text -/

/-- A pair as a header writes it. -/
def line (pair : String × String) : List Char := pair.1.toList ++ '=' :: pair.2.toList

theorem toList_format_cons (pair : String × String) (cookie : Cookie) :
    (format (pair :: cookie)).toList =
      [';'].intercalate (line pair :: cookie.map fun pair => ' ' :: line pair) := by
  have hline : ∀ pair : String × String, (pair.1 ++ "=" ++ pair.2).toList = line pair := by
    intro pair
    simp [line]
  have hlines : ((pair :: cookie).map fun pair => pair.1 ++ "=" ++ pair.2).map String.toList =
      line pair :: cookie.map line := by
    simp [hline]
  have hsep : "; ".toList = [';', ' '] := rfl
  rw [format, String.toList_intercalate, hlines, hsep, intercalate_shift, List.map_map]
  rfl

theorem readPair_line (h : IsClean pair) : readPair (line pair) = pair := by
  rw [readPair, line, cutAt_append h.name_free.1]
  simp only [trimmed_eq_self h.name_trimmed, trimmed_eq_self h.value_trimmed, String.ofList_toList]

/-- A blank in front does not count. -/
theorem readPair_space (part : List Char) : readPair (' ' :: part) = readPair part := by
  have hblank : ∀ cs : List Char, trimmed (' ' :: cs) = trimmed cs :=
    fun cs => trimmed_cons_of_isBlank rfl cs
  rw [readPair, readPair, cutAt, if_neg (by decide)]
  cases cutAt '=' part with
  | none => simp only [Option.map_none, hblank]
  | some cut => simp only [Option.map_some, hblank]

theorem told_format_cons (h : IsClean pair) (hcookie : ∀ pair ∈ cookie, IsClean pair) :
    told (format (pair :: cookie)) = pair :: cookie := by
  have hfree : ∀ {pair : String × String}, IsClean pair → ';' ∉ line pair := by
    intro pair hpair
    simp [line, hpair.name_free.2, hpair.value_free]
  have hparts : pieces (· == ';') (format (pair :: cookie)).toList =
      line pair :: cookie.map fun pair => ' ' :: line pair := by
    refine (eq_pieces_iff.mpr ⟨List.cons_ne_nil _ _, ?_, (toList_format_cons pair cookie).symm⟩).symm
    intro part hpart
    rcases List.mem_cons.mp hpart with rfl | hpart
    · exact hfree h
    · obtain ⟨later, hlater, rfl⟩ := List.mem_map.mp hpart
      simp [hfree (hcookie later hlater)]
  have hread : cookie.map (fun pair => readPair (' ' :: line pair)) = cookie.map id := by
    apply List.map_congr_left
    intro later hlater
    rw [readPair_space, readPair_line (hcookie later hlater), id]
  rw [told, hparts, List.map_cons, List.map_map, readPair_line h]
  exact congrArg (pair :: ·) (hread.trans (List.map_id cookie))

theorem parse_format (hnodup : cookie.names.Nodup) (h : ∀ pair ∈ cookie, IsClean pair) :
    parse (format cookie) = cookie := by
  cases cookie with
  | nil => decide
  | cons pair cookie =>
    obtain ⟨hpair, hcookie⟩ := List.forall_mem_cons.mp h
    have hkept : (pair :: cookie).filter isKept = pair :: cookie := by
      rw [List.filter_eq_self]
      intro other hother
      exact isKept_iff.mpr ⟨(h other hother).name_ne, (h other hother).not_attribute⟩
    rw [parse_eq, told_format_cons hpair hcookie, hkept, nil_override hnodup]

theorem parse_normalize (raw : String) : parse (normalize raw) = parse raw :=
  parse_format (nodup_parse raw) fun _ => isClean_of_mem_parse

theorem parse_merge (a b : String) : parse (merge a b) = (parse a).override (parse b) := by
  apply parse_format (nodup_override (nodup_parse a))
  intro pair hpair
  rcases mem_of_mem_override hpair with ha | hb
  · exact isClean_of_mem_parse ha
  · exact isClean_of_mem_parse hb

theorem merge_eq (a b : String) : merge a b = format ((parse a).override (parse b)) := rfl

theorem merge_merge (a b c : String) :
    merge (merge a b) c = format (((parse a).override (parse b)).override (parse c)) := by
  rw [merge_eq, parse_merge]

/-! ## Headers that say nothing -/

/-- Each part of the header is without a name or says an attribute. -/
def SaysNothing (raw : String) : Prop :=
  ∃ pairs, Tells raw pairs ∧ ∀ pair ∈ pairs, pair.1 = "" ∨
    ∃ known ∈ attributeNames, pair.1.toList.map Char.toLower = known.toList

theorem parse_eq_nil_iff : parse raw = [] ↔ SaysNothing raw := by
  have hpair : ∀ pair, ¬isKept pair = true ↔ pair.1 = "" ∨
      ∃ known ∈ attributeNames, pair.1.toList.map Char.toLower = known.toList := by
    intro pair
    rw [isKept_iff]
    simp only [not_and_or, not_forall, not_not, exists_prop]
  rw [parse_eq, nil_override_eq_nil_iff, List.filter_eq_nil_iff]
  simp only [hpair]
  constructor
  · intro h
    exact ⟨told raw, tells_iff.mpr rfl, h⟩
  · rintro ⟨pairs, htells, hall⟩
    rwa [tells_iff.mp htells] at hall

theorem format_eq_empty_iff : format cookie = "" ↔ cookie = [] := by
  constructor
  · intro h
    cases cookie with
    | nil => rfl
    | cons pair cookie =>
      have hmem : '=' ∈ (format (pair :: cookie)).toList := by
        rw [toList_format_cons]
        cases cookie with
        | nil => simp [line]
        | cons next cookie => simp [line, List.intercalate_cons_cons]
      rw [h] at hmem
      cases hmem
  · rintro rfl
    rfl

/-- The normal form is empty exactly if the header says nothing. -/
theorem normalize_eq_empty_iff : normalize raw = "" ↔ SaysNothing raw := by
  rw [normalize, format_eq_empty_iff, parse_eq_nil_iff]

/-! ## Laws -/

/-- A cookie that was read is written and read back unchanged, and its header is a normal form.  No
name occurs twice in it, and every pair is clean.  It is told by the pairs that the parts of the
header say and that belong to the session: each name stands where it occurs first, and its value is
that of the last one. -/
theorem header_normal_form (raw : String) :
    parse (format (parse raw)) = parse raw ∧ normalize (normalize raw) = normalize raw ∧
      (parse raw).names.Nodup ∧ (∀ pair ∈ parse raw, IsClean pair) ∧
      ∃ pairs, (∀ others, Tells raw others ↔ others = pairs) ∧
        (parse raw).names = (names (pairs.filter isKept)).eraseDups ∧
        ∀ name, (parse raw).lookup name = (pairs.filter isKept).reverse.lookup name := by
  refine ⟨parse_normalize raw, ?_, nodup_parse raw, fun _ => isClean_of_mem_parse, told raw,
    fun others => tells_iff, ?_, ?_⟩
  · exact congrArg format (parse_normalize raw)
  · rw [parse_eq, names_override]
    simp [names]
  · intro name
    rw [parse_eq, lookup_override, List.lookup_nil, Option.or_none]

/-- A header with another laid over it has the names of the first in their order and then the new
ones of the second in theirs, each with the value that the second gives it, or else the first.
Laying headers over each other is associative, laying the same one a second time changes nothing,
and an empty one on either side leaves the normal form. -/
theorem merging_is_lawful (a b c : String) :
    parse (merge a b) =
        ((parse a).map fun pair => (pair.1, ((parse b).lookup pair.1).getD pair.2)) ++
          (parse b).filter (·.1 ∉ (parse a).names) ∧
      merge (merge a b) c = merge a (merge b c) ∧ merge (merge a b) b = merge a b ∧
      merge a "" = normalize a ∧ merge "" a = normalize a := by
  have hnone : parse "" = [] := by decide
  refine ⟨?_, ?_, ?_, ?_, ?_⟩
  · rw [parse_merge, override_eq (nodup_parse a) (nodup_parse b)]
  · calc merge (merge a b) c
        = format (((parse a).override (parse b)).override (parse c)) := merge_merge a b c
      _ = format ((parse a).override ((parse b).override (parse c))) := by
          rw [override_assoc (nodup_parse a) (nodup_parse b) (nodup_parse c)]
      _ = merge a (merge b c) := by rw [merge_eq a, parse_merge]
  · calc merge (merge a b) b
        = format (((parse a).override (parse b)).override (parse b)) := merge_merge a b b
      _ = format ((parse a).override ((parse b).override (parse b))) := by
          rw [override_assoc (nodup_parse a) (nodup_parse b) (nodup_parse b)]
      _ = merge a b := by rw [override_self (nodup_parse b), merge_eq]
  · rw [merge_eq, hnone, override_nil, normalize]
  · rw [merge_eq, hnone, nil_override (nodup_parse a), normalize]

/-- Laid over the first header, the second one changes the value of a name and adds another. -/
example : parse "a=1; b=2" = [("a", "1"), ("b", "2")] ∧
    merge "a=1; b=2" "b=3; c=4" = "a=1; b=3; c=4" := by decide +kernel

end Cookie

end Jukebox
