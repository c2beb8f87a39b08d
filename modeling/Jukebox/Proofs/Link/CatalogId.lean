import Mathlib.Data.List.Infix
import Jukebox.Link.Basic
import Jukebox.Proofs.Text
import Jukebox.Session.Pairs

/-!
# The number in a link

The number of the catalog is read behind the first `id=` of a text that stands before a decimal
digit of some script.  It need not be made of ASCII digits, and it need not be the parameter `id`
of the link: what comes first may be the end of another name with its value, or stand inside of a
value (`Link.catalogId?_exact`).
-/

namespace Jukebox

namespace Link

open Jukebox.Text

variable {c d : Char} {cs before after digits rest : List Char}

/-! ## The first `id=` before a digit -/

/-- Somewhere in a text `id=` stands before a decimal digit of some script. -/
def HoldsId (cs : List Char) : Prop := ∃ d, isDecimalDigit d = true ∧ "id=".toList ++ [d] <:+: cs

/-- The digits that follow the first `id=` of a text before a digit. -/
def FirstId (cs digits : List Char) : Prop :=
  ∃ before rest, cs = before ++ ("id=".toList ++ rest) ∧ ¬ HoldsId before ∧
    digits = rest.takeWhile isDecimalDigit ∧ digits ≠ []

theorem idHere?_id (rest : List Char) :
    idHere? ("id=".toList ++ rest) =
      if (rest.takeWhile isDecimalDigit).isEmpty then none
      else some (rest.takeWhile isDecimalDigit) := rfl

theorem idHere?_eq_some_iff :
    idHere? cs = some digits ↔
      ∃ rest, cs = "id=".toList ++ rest ∧ digits = rest.takeWhile isDecimalDigit ∧ digits ≠ [] := by
  constructor
  · intro h
    unfold idHere? at h
    split at h
    · next rest =>
      dsimp only at h
      split at h
      · cases h
      · next hne =>
        cases h
        exact ⟨rest, rfl, rfl, by simpa using hne⟩
    · cases h
  · rintro ⟨rest, rfl, rfl, hne⟩
    rw [idHere?_id, if_neg (by simpa using hne)]

theorem idHere?_isSome_iff :
    (idHere? cs).isSome = true ↔ ∃ d, isDecimalDigit d = true ∧ "id=".toList ++ [d] <+: cs := by
  rw [Option.isSome_iff_exists]
  constructor
  · rintro ⟨digits, h⟩
    obtain ⟨rest, rfl, rfl, hne⟩ := idHere?_eq_some_iff.mp h
    cases rest with
    | nil => exact absurd rfl hne
    | cons d rest =>
      by_cases hd : isDecimalDigit d = true
      · exact ⟨d, hd, rest, by simp⟩
      · exact absurd (List.takeWhile_cons_of_neg hd) hne
  · rintro ⟨d, hd, rest, rfl⟩
    refine ⟨(d :: rest).takeWhile isDecimalDigit, idHere?_eq_some_iff.mpr ⟨d :: rest, ?_, rfl, ?_⟩⟩
    · simp
    · rw [List.takeWhile_cons_of_pos hd]
      exact List.cons_ne_nil _ _

theorem holdsId_cons_iff : HoldsId (c :: cs) ↔ (idHere? (c :: cs)).isSome = true ∨ HoldsId cs := by
  simp only [HoldsId, List.infix_cons_iff, idHere?_isSome_iff, and_or_left, exists_or]

theorem not_holdsId_nil : ¬ HoldsId [] := by
  rintro ⟨d, -, h⟩
  exact absurd (List.infix_nil.mp h) (by simp)

theorem idParameter?_cons (c : Char) (cs : List Char) :
    idParameter? (c :: cs) = (idHere? (c :: cs)).or (idParameter? cs) := by
  rw [idParameter?]
  cases idHere? (c :: cs) <;> rfl

/-- Nothing is read exactly if no `id=` stands before a digit. -/
theorem idParameter?_eq_none_iff : idParameter? cs = none ↔ ¬ HoldsId cs := by
  induction cs with
  | nil => exact iff_of_true rfl not_holdsId_nil
  | cons c cs ih =>
    rw [idParameter?_cons, Option.or_eq_none_iff, ih, holdsId_cons_iff, not_or,
      Option.not_isSome_iff_eq_none]

/-! ## What cannot be part of it -/

/-- A character that continues neither `id=` nor the digits behind it. -/
def Breaks (c : Char) : Prop := c ≠ 'd' ∧ c ≠ '=' ∧ isDecimalDigit c = false

instance (c : Char) : Decidable (Breaks c) := inferInstanceAs (Decidable (_ ∧ _))

theorem takeWhile_append_of_breaks (hc : Breaks c) (before after : List Char) :
    (before ++ c :: after).takeWhile isDecimalDigit = before.takeWhile isDecimalDigit := by
  have hnil : (c :: after).takeWhile isDecimalDigit = [] :=
    List.takeWhile_cons_of_neg (by simp [hc.2.2])
  rw [List.takeWhile_append, hnil, List.append_nil]
  split
  · next hlength => exact (List.takeWhile_prefix _).eq_of_length hlength |>.symm
  · rfl

/-- What begins in front of such a character does not go beyond it. -/
theorem idHere?_cons_append (hc : Breaks c) (d : Char) (before after : List Char) :
    idHere? (d :: before ++ c :: after) = idHere? (d :: before) := by
  apply Option.ext
  intro digits
  rw [idHere?_eq_some_iff, idHere?_eq_some_iff]
  constructor
  · rintro ⟨rest, heq, rfl, hne⟩
    cases before with
    | nil =>
      obtain ⟨-, hd, -⟩ : d = 'i' ∧ c = 'd' ∧ after = '=' :: rest := by simpa using heq
      exact absurd hd hc.1
    | cons x before =>
      cases before with
      | nil =>
        obtain ⟨-, -, heq, -⟩ : d = 'i' ∧ x = 'd' ∧ c = '=' ∧ after = rest := by simpa using heq
        exact absurd heq hc.2.1
      | cons y before =>
        obtain ⟨rfl, rfl, rfl, rfl⟩ :
            d = 'i' ∧ x = 'd' ∧ y = '=' ∧ before ++ c :: after = rest := by simpa using heq
        rw [takeWhile_append_of_breaks hc] at hne ⊢
        exact ⟨before, rfl, rfl, hne⟩
  · rintro ⟨rest, heq, rfl, hne⟩
    rw [heq]
    refine ⟨rest ++ c :: after, by simp, ?_, hne⟩
    rw [takeWhile_append_of_breaks hc]

theorem idParameter?_append_cons (hc : Breaks c) (before after : List Char) :
    idParameter? (before ++ c :: after) =
      (idParameter? before).or (idParameter? (c :: after)) := by
  induction before with
  | nil => rfl
  | cons d before ih =>
    rw [List.cons_append, idParameter?_cons, idParameter?_cons, ih, ← List.cons_append,
      idHere?_cons_append hc, Option.or_assoc]

theorem idParameter?_cons_of_ne (h : c ≠ 'i') (cs : List Char) :
    idParameter? (c :: cs) = idParameter? cs := by
  have hhere : idHere? (c :: cs) = none := by
    rw [Option.eq_none_iff_forall_ne_some]
    intro digits hdigits
    obtain ⟨rest, heq, -⟩ := idHere?_eq_some_iff.mp hdigits
    exact h (List.cons.inj heq).1
  rw [idParameter?_cons, hhere, Option.none_or]

theorem holdsId_append_cons_iff (hc : Breaks c) (hi : c ≠ 'i') :
    HoldsId (before ++ c :: after) ↔ HoldsId before ∨ HoldsId after := by
  rw [← not_iff_not, not_or, ← idParameter?_eq_none_iff, ← idParameter?_eq_none_iff,
    ← idParameter?_eq_none_iff, idParameter?_append_cons hc, idParameter?_cons_of_ne hi,
    Option.or_eq_none_iff]

theorem idParameter?_append_id (h : rest.takeWhile isDecimalDigit ≠ []) :
    idParameter? (before ++ ("id=".toList ++ rest)) =
      (idParameter? before).or (some (rest.takeWhile isDecimalDigit)) := by
  have hhere : idHere? ('i' :: 'd' :: '=' :: rest) = some (rest.takeWhile isDecimalDigit) :=
    idHere?_eq_some_iff.mpr ⟨rest, rfl, rfl, h⟩
  have happend := idParameter?_append_cons (c := 'i') (by decide) before ('d' :: '=' :: rest)
  rwa [idParameter?_cons, hhere, Option.some_or] at happend

/-- What is read is behind the first `id=` before a digit. -/
theorem idParameter?_eq_some_iff : idParameter? cs = some digits ↔ FirstId cs digits := by
  constructor
  · intro h
    induction cs with
    | nil => cases h
    | cons c cs ih =>
      rw [idParameter?_cons] at h
      cases hhere : idHere? (c :: cs) with
      | some found =>
        obtain ⟨rest, heq, hfound, hne⟩ := idHere?_eq_some_iff.mp hhere
        rw [hhere, Option.some_or, Option.some.injEq] at h
        exact ⟨[], rest, heq, not_holdsId_nil, h ▸ hfound, h ▸ hne⟩
      | none =>
        rw [hhere, Option.none_or] at h
        obtain ⟨before, rest, rfl, hbefore, hdigits, hne⟩ := ih h
        refine ⟨c :: before, rest, rfl, ?_, hdigits, hne⟩
        rw [holdsId_cons_iff, not_or, Option.not_isSome_iff_eq_none]
        -- An `id=` that begins in front of another one ends in front of it.
        have hi : Breaks 'i' := by decide
        rw [← idHere?_cons_append hi c before ('d' :: '=' :: rest)]
        exact ⟨hhere, hbefore⟩
  · rintro ⟨before, rest, rfl, hbefore, rfl, hne⟩
    rw [idParameter?_append_id hne, idParameter?_eq_none_iff.mpr hbefore, Option.none_or]

theorem FirstId.forall_isDecimalDigit (h : FirstId cs digits) :
    ∀ d ∈ digits, isDecimalDigit d = true := by
  obtain ⟨before, rest, -, -, rfl, -⟩ := h
  intro d hd
  exact List.mem_takeWhile_imp hd

theorem FirstId.ne_nil (h : FirstId cs digits) : digits ≠ [] := by
  obtain ⟨before, rest, -, -, -, hne⟩ := h
  exact hne

/-! ## Numbers -/

theorem isNumber_iff {value : String} :
    isNumber value = true ↔ value ≠ "" ∧ ∀ d ∈ value.toList, isAsciiDigit d = true := by
  simp [isNumber]

theorem catalogId?_eq_some_iff {typed id : String} :
    catalogId? typed = some id ↔
      FirstId typed.toList id.toList ∨
        ¬ HoldsId typed.toList ∧ isNumber id = true ∧ id = trim typed := by
  rw [← idParameter?_eq_some_iff, ← idParameter?_eq_none_iff]
  unfold catalogId?
  cases hread : idParameter? typed.toList with
  | some digits => simp [← String.toList_inj]
  | none =>
    dsimp only
    constructor
    · intro h
      split at h
      · next hnumber =>
        cases h
        exact .inr ⟨rfl, hnumber, rfl⟩
      · cases h
    · rintro (h | ⟨-, hnumber, rfl⟩)
      · cases h
      · rw [if_pos hnumber]

theorem catalogId?_of_idParameter? {typed : String} (h : idParameter? typed.toList = some digits) :
    catalogId? typed = some (String.ofList digits) := by
  rw [catalogId?, h]

theorem decimal_of_catalogId? {typed id : String} (h : catalogId? typed = some id) :
    id ≠ "" ∧ ∀ d ∈ id.toList, isDecimalDigit d = true := by
  rcases catalogId?_eq_some_iff.mp h with hfirst | ⟨-, hnumber, -⟩
  · exact ⟨by simpa using hfirst.ne_nil, hfirst.forall_isDecimalDigit⟩
  · obtain ⟨hne, hdigits⟩ := isNumber_iff.mp hnumber
    exact ⟨hne, fun d hd => isDecimalDigit_of_isAsciiDigit (hdigits d hd)⟩

/-- Only behind `id=` are digits of other scripts taken for a number. -/
theorem exists_not_isNumber_iff (typed : String) :
    (∃ id, catalogId? typed = some id ∧ isNumber id = false) ↔
      ∃ digits, FirstId typed.toList digits ∧ ∃ d ∈ digits, isAsciiDigit d = false := by
  constructor
  · rintro ⟨id, h, hnumber⟩
    rcases catalogId?_eq_some_iff.mp h with hfirst | ⟨-, hascii, -⟩
    · refine ⟨id.toList, hfirst, ?_⟩
      by_contra hall
      push Not at hall
      have hascii : isNumber id = true :=
        isNumber_iff.mpr ⟨by simpa using hfirst.ne_nil, by simpa using hall⟩
      rw [hnumber] at hascii
      cases hascii
    · rw [hnumber] at hascii
      cases hascii
  · rintro ⟨digits, hfirst, d, hd, hother⟩
    have hlist : (String.ofList digits).toList = digits := String.toList_ofList
    refine ⟨String.ofList digits, catalogId?_eq_some_iff.mpr (.inl (by rwa [hlist])), ?_⟩
    rw [← Bool.not_eq_true, isNumber_iff, hlist]
    rintro ⟨-, hascii⟩
    rw [hascii d hd] at hother
    cases hother

/-! ## Pairs of a query -/

/-- A pair of a query as it is written. -/
def pairText (pair : String × String) : String := pair.1 ++ "=" ++ pair.2

/-- A pair that is read for the parameter `id`: either the name ends like it and the value begins
with a digit, or the value holds another `id=` before a digit. -/
def LooksLikeId (pair : String × String) : Prop :=
  ("id".toList <:+ pair.1.toList ∧ ∃ d ∈ pair.2.toList.head?, isDecimalDigit d = true) ∨
    HoldsId pair.2.toList

theorem toList_pairText (pair : String × String) :
    (pairText pair).toList = pair.1.toList ++ '=' :: pair.2.toList := by
  rw [pairText, String.toList_append, String.toList_append, List.append_assoc]
  rfl

theorem holdsId_pairText_iff {pair : String × String} (h : '=' ∉ pair.1.toList) :
    HoldsId (pairText pair).toList ↔ LooksLikeId pair := by
  rw [toList_pairText, LooksLikeId]
  generalize pair.1.toList = key at h ⊢
  generalize pair.2.toList = value
  constructor
  · rintro ⟨d, hd, before, after, heq⟩
    -- The name ends at the first `=`, which may be that of `id=` or another one before it.
    have hcut := cutAt_append h value
    rw [← heq] at hcut
    by_cases hbefore : '=' ∈ before
    · obtain ⟨⟨first, rest⟩, hfirst⟩ :=
        Option.ne_none_iff_exists'.mp (mt cutAt_eq_none_iff.mp (not_not.mpr hbefore))
      obtain ⟨hnot, rfl⟩ := eq_append_of_cutAt hfirst
      have hother := cutAt_append hnot (rest ++ ("id=".toList ++ [d]) ++ after)
      simp only [List.append_assoc, List.cons_append] at hcut hother
      rw [hcut, Option.some.injEq, Prod.mk.injEq] at hother
      exact .inr ⟨d, hd, rest, after, by rw [hother.2]; simp⟩
    · have hnot : '=' ∉ before ++ "id".toList := by simp [hbefore]
      have hother := cutAt_append hnot (d :: after)
      have hsame : before ++ ("id=".toList ++ [d]) ++ after =
          before ++ "id".toList ++ '=' :: d :: after := by simp
      rw [hsame, hother, Option.some.injEq, Prod.mk.injEq] at hcut
      obtain ⟨rfl, rfl⟩ := hcut
      exact .inl ⟨List.suffix_append _ _, d, rfl, hd⟩
  · rintro (⟨⟨before, rfl⟩, d, hfirst, hd⟩ | ⟨d, hd, hvalue⟩)
    · obtain ⟨after, rfl⟩ := List.head?_eq_some_iff.mp hfirst
      exact ⟨d, hd, before, after, by simp⟩
    · exact ⟨d, hd, hvalue.trans ((List.suffix_cons _ _).trans (List.suffix_append _ _)).isInfix⟩

/-- The parameter `id` among others: what stands in front of the query, the pairs before it, its
value, the pairs behind it, and what stands behind the query. -/
def queryLink (lead : String) (earlier : Pairs) (value : String) (later : Pairs)
    (fragment : Option String) : String :=
  lead ++ "?" ++ "&".intercalate ((earlier ++ ("id", value) :: later).map pairText) ++
    (fragment.map ("#" ++ ·)).getD ""

/-- All that stands in front of the parameter. -/
def front (lead : String) (earlier : Pairs) : String :=
  lead ++ "?" ++ String.join (earlier.map fun pair => pairText pair ++ "&")

theorem toList_front (lead : String) (earlier : Pairs) :
    (front lead earlier).toList =
      lead.toList ++ '?' :: earlier.flatMap fun pair => (pairText pair).toList ++ ['&'] := by
  simp [front, String.toList_join, List.flatMap_map]

/-- Behind the value stands nothing, another pair, or what follows the query. -/
theorem toList_queryLink (lead : String) (earlier : Pairs) (value : String) (later : Pairs)
    (fragment : Option String) :
    ∃ rest, (queryLink lead earlier value later fragment).toList =
        (front lead earlier).toList ++ ("id=".toList ++ (value.toList ++ rest)) ∧
      ∀ c ∈ rest.head?, c = '&' ∨ c = '#' := by
  refine ⟨later.flatMap (fun pair => '&' :: (pairText pair).toList) ++
    ((fragment.map ("#" ++ ·)).getD "").toList, ?_, ?_⟩
  · rw [toList_front, queryLink, String.toList_append, String.toList_append,
      String.toList_intercalate, List.map_map, List.map_append, List.map_cons,
      intercalate_append_cons]
    simp [List.flatMap_map, toList_pairText]
  · cases later with
    | nil =>
      cases fragment with
      | none => simp
      | some text => simp
    | cons pair later => simp

theorem holdsId_front_iff {lead : String} {earlier : Pairs}
    (h : ∀ pair ∈ earlier, '=' ∉ pair.1.toList) :
    HoldsId (front lead earlier).toList ↔
      HoldsId lead.toList ∨ ∃ pair ∈ earlier, LooksLikeId pair := by
  have hpairs : HoldsId (earlier.flatMap fun pair => (pairText pair).toList ++ ['&']) ↔
      ∃ pair ∈ earlier, LooksLikeId pair := by
    induction earlier with
    | nil => simp [not_holdsId_nil]
    | cons pair earlier ih =>
      obtain ⟨hpair, hearlier⟩ := List.forall_mem_cons.mp h
      rw [List.flatMap_cons, List.append_assoc, List.singleton_append,
        holdsId_append_cons_iff (by decide) (by decide), ih hearlier, holdsId_pairText_iff hpair]
      simp
  rw [toList_front, holdsId_append_cons_iff (by decide) (by decide), hpairs]

/-- The parameter `id` is read if nothing in front of it is. -/
theorem idParameter?_queryLink {value : String} (hvalue : isNumber value = true) (lead : String)
    (earlier later : Pairs) (fragment : Option String) :
    idParameter? (queryLink lead earlier value later fragment).toList =
      (idParameter? (front lead earlier).toList).or (some value.toList) := by
  obtain ⟨rest, hlink, hrest⟩ := toList_queryLink lead earlier value later fragment
  obtain ⟨hne, hdigits⟩ := isNumber_iff.mp hvalue
  have hstop : rest.takeWhile isDecimalDigit = [] := by
    cases rest with
    | nil => rfl
    | cons c rest =>
      rcases hrest c rfl with rfl | rfl <;> exact List.takeWhile_cons_of_neg (by decide)
  have htake : (value.toList ++ rest).takeWhile isDecimalDigit = value.toList := by
    rw [List.takeWhile_append_of_pos fun d hd => isDecimalDigit_of_isAsciiDigit (hdigits d hd),
      hstop, List.append_nil]
  rw [hlink, idParameter?_append_id (by simpa [htake] using hne), htake]

/-- The number in a text is what follows the first `id=` before a digit, or else the whole text if
it is made of ASCII digits.  What follows `id=` are decimal digits, but they may be of any script.
In a link with the parameter `id` the number is the value of the parameter, unless `id=` stands
before a digit in front of it: in what precedes the query, or in the query where the name of an
earlier parameter ends in `id` or its value holds another `id=`.  Then what stands there first is
taken for the number. -/
theorem catalogId?_exact (typed : String) :
    (∀ id, catalogId? typed = some id ↔
      FirstId typed.toList id.toList ∨
        ¬ HoldsId typed.toList ∧ isNumber id = true ∧ id = trim typed) ∧
    (∀ id, catalogId? typed = some id →
      id ≠ "" ∧ ∀ d ∈ id.toList, isDecimalDigit d = true) ∧
    ((∃ id, catalogId? typed = some id ∧ isNumber id = false) ↔
      ∃ digits, FirstId typed.toList digits ∧ ∃ d ∈ digits, isAsciiDigit d = false) ∧
    ∀ lead earlier value later fragment, typed = queryLink lead earlier value later fragment →
      isNumber value = true → (∀ pair ∈ earlier, '=' ∉ pair.1.toList) →
      (catalogId? typed = some value ↔
        ∀ digits, FirstId (front lead earlier).toList digits → digits = value.toList) ∧
      (∀ digits, FirstId (front lead earlier).toList digits →
        catalogId? typed = some (String.ofList digits)) ∧
      (HoldsId (front lead earlier).toList ↔
        HoldsId lead.toList ∨ ∃ pair ∈ earlier, LooksLikeId pair) := by
  refine ⟨fun id => catalogId?_eq_some_iff, fun id => decimal_of_catalogId?,
    exists_not_isNumber_iff typed, ?_⟩
  rintro lead earlier value later fragment rfl hvalue hkeys
  have hread := idParameter?_queryLink hvalue lead earlier later fragment
  refine ⟨?_, ?_, holdsId_front_iff hkeys⟩
  · simp only [← idParameter?_eq_some_iff]
    cases hfront : idParameter? (front lead earlier).toList with
    | none =>
      rw [hfront, Option.none_or] at hread
      simp [catalogId?_of_idParameter? hread]
    | some found =>
      rw [hfront, Option.some_or] at hread
      simp [catalogId?_of_idParameter? hread, ← String.toList_inj]
  · intro digits hfirst
    rw [idParameter?_eq_some_iff.mpr hfirst, Option.some_or] at hread
    exact catalogId?_of_idParameter? hread

/-- A link of the catalog in which the parameter `userid` stands in front of the parameter `id`, and
its value begins with a digit of another script: this digit is taken for the number. -/
theorem catalogId?_exact_of_userid :
    let link := "https://music.163.com/#/song?userid=٣&id=186016"
    link = queryLink "https://music.163.com/#/song" [("userid", "٣")] "186016" [] none ∧
      isNumber "186016" = true ∧ (∀ pair ∈ [("userid", "٣")], '=' ∉ pair.1.toList) ∧
      catalogId? link = some "٣" ∧ isNumber "٣" = false := by
  intro link
  have hlink : link =
      queryLink "https://music.163.com/#/song" [("userid", "٣")] "186016" [] none := by
    decide
  have hnumber : isNumber "186016" = true := by decide
  have hkeys : ∀ pair ∈ [("userid", "٣")], '=' ∉ pair.1.toList := by decide
  have hfirst :
      FirstId (front "https://music.163.com/#/song" [("userid", "٣")]).toList "٣".toList :=
    idParameter?_eq_some_iff.mp (by decide)
  obtain ⟨-, -, -, hparameter⟩ := catalogId?_exact link
  obtain ⟨-, htaken, -⟩ := hparameter _ _ _ _ _ hlink hnumber hkeys
  exact ⟨hlink, hnumber, hkeys, htaken _ hfirst, by decide⟩

end Link

end Jukebox
