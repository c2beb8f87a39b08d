import Mathlib.Data.List.TakeDrop
import Mathlib.Data.String.Basic
import Jukebox.Files.Path
import Jukebox.Proofs.Text

/-!
# Parts of paths and names of files

The parts of a path are what stands between its slashes, so the last of them is what follows the
last slash.  A part that names a file says something, and so does its stem: only a dot with
something before it divides a name.
-/

namespace Jukebox

namespace Path

variable {path name link : String} {cs before after : List Char}

/-! ## Parts -/

open String in
/-- From a place on, a text is cut at its slashes; `m` was read since the last of them. -/
theorem splitOnAux_slash (l m r : List Char) (done : List String) :
    splitOnAux (ofList (l ++ m ++ r)) "/" ⟨utf8Len l⟩ ⟨utf8Len l + utf8Len m⟩ 0 done =
      done.reverse ++ (List.splitOnPPrepend (· == '/') r m.reverse).map ofList := by
  have hget : Pos.Raw.get "/" 0 = '/' := by decide
  have hnext : Pos.Raw.next "/" 0 = ⟨1⟩ := by decide
  have hend : Pos.Raw.atEnd "/" ⟨1⟩ = true := by decide
  unfold splitOnAux
  simp only [hget, hnext, hend, if_true]
  cases r with
  | nil =>
    have hatEnd := (atEnd_of_valid (l ++ m) []).mpr rfl
    rw [utf8Len_append] at hatEnd
    rw [if_pos hatEnd]
    simpa using extract_of_valid l m []
  | cons c r =>
    have hatEnd := (atEnd_of_valid (l ++ m) (c :: r)).not.mpr (by simp)
    have hhere := get_of_valid (l ++ m) (c :: r)
    have hright := next_of_valid (l ++ m) c r
    rw [utf8Len_append] at hatEnd hhere hright
    rw [if_neg hatEnd, hhere, List.headD_cons, hright]
    by_cases hc : c = '/'
    · subst hc
      have hpart := extract_of_valid l m ('/' :: r)
      have hback : (⟨utf8Len l + utf8Len m + '/'.utf8Size⟩ : Pos.Raw).unoffsetBy ⟨1⟩ =
          ⟨utf8Len l + utf8Len m⟩ := rfl
      have hrest : l ++ m ++ '/' :: r = l ++ m ++ ['/'] ++ [] ++ r := by simp
      have hsize : utf8Len l + utf8Len m + '/'.utf8Size = utf8Len (l ++ m ++ ['/']) := by
        simp [Nat.add_assoc]
      rw [if_pos (beq_self_eq_true _), hback, hpart, hrest, hsize]
      have ih := splitOnAux_slash (l ++ m ++ ['/']) [] r (ofList m :: done)
      rw [utf8Len_nil, Nat.add_zero] at ih
      rw [ih]
      simp [List.splitOnPPrepend_cons_eq_if]
    · have hback : (⟨utf8Len l + utf8Len m⟩ : Pos.Raw).unoffsetBy 0 =
          ⟨utf8Len l + utf8Len m⟩ := rfl
      have hrest : l ++ m ++ c :: r = l ++ (m ++ [c]) ++ r := by simp
      have hsize : utf8Len l + utf8Len m + c.utf8Size = utf8Len l + utf8Len (m ++ [c]) := by
        simp [Nat.add_assoc]
      rw [if_neg (by simpa using hc), hback, hright, hrest, hsize,
        splitOnAux_slash l (m ++ [c]) r done]
      simp [List.splitOnPPrepend_cons_eq_if, hc]

theorem parts_eq (path : String) :
    parts path = (Text.pieces (· == '/') path.toList).map String.ofList := by
  have hcut := splitOnAux_slash [] [] path.toList []
  have hne : ("/" == "") = false := by decide
  rw [Text.pieces_eq_splitOn, List.splitOn_eq_splitOnP, List.splitOnP_eq_splitOnPPrepend, parts,
    String.splitOn, hne]
  simpa using hcut

/-- The last part is what follows the last slash, or the whole path if it has none. -/
theorem exists_last_part (path : String) :
    ∃ last, (parts path).getLast? = some last ∧ '/' ∉ last.toList ∧
      (path = last ∨ ∃ before, path = before ++ "/" ++ last) := by
  obtain ⟨hne, hparts, hjoin⟩ :=
    Text.eq_pieces_iff.mp (Eq.refl (Text.pieces (· == '/') path.toList))
  obtain ⟨first, last, hpieces⟩ := (List.eq_nil_or_concat' _).resolve_left hne
  rw [hpieces] at hparts hjoin
  refine ⟨String.ofList last, ?_, ?_, ?_⟩
  · rw [parts_eq, hpieces]
    simp
  · rw [String.toList_ofList]
    exact hparts last (by simp)
  · rcases List.eq_nil_or_concat' first with rfl | ⟨first, part, rfl⟩
    · left
      rw [← String.toList_inj, ← hjoin]
      simp
    · right
      refine ⟨String.ofList (first.flatMap (· ++ ['/']) ++ part), ?_⟩
      rw [← String.toList_inj, ← hjoin, Text.intercalate_append_cons]
      simp

/-! ## Names of files -/

/-- The name of a file says something. -/
theorem ne_empty_of_fileName? (h : fileName? path = some name) : name ≠ "" := by
  unfold fileName? at h
  split at h
  · next last hlast =>
    obtain rfl : last = name := by
      split_ifs at h
      exact Option.some.inj h
    have hmem : last ∈ components path := List.mem_of_getLast? hlast
    unfold components at hmem
    split at hmem
    · cases hmem
    · next first rest hparts =>
      rcases List.mem_append.mp hmem with hfirst | hrest
      · split_ifs at hfirst with hempty
        · cases hfirst
        · rwa [List.mem_singleton.mp hfirst]
      · have hsays := (List.mem_filter.mp hrest).2
        simp only [Bool.and_eq_true, bne_iff_ne] at hsays
        exact hsays.1
  · cases h

/-- The last dot is the first one from behind. -/
theorem cutAtLastDot_eq (cs : List Char) :
    cutAtLastDot cs =
      (Text.cutAt '.' cs.reverse).map fun (after, before) => (before.reverse, after.reverse) := by
  have hother : ∀ {part : List Char}, '.' ∉ part → ∀ c ∈ part, (c != '.') = true := by
    intro part hpart c hc
    rw [bne_iff_ne]
    rintro rfl
    exact hpart hc
  unfold cutAtLastDot
  rw [List.span_eq_takeWhile_dropWhile]
  cases hcut : Text.cutAt '.' cs.reverse with
  | none =>
    rw [List.dropWhile_eq_nil_iff.mpr (hother (Text.cutAt_eq_none_iff.mp hcut))]
    rfl
  | some cut =>
    obtain ⟨after, before⟩ := cut
    obtain ⟨hafter, hcs⟩ := Text.eq_append_of_cutAt hcut
    rw [hcs, List.takeWhile_append_of_pos (hother hafter),
      List.dropWhile_append_of_pos (hother hafter)]
    simp

theorem eq_append_of_cutAtLastDot (h : cutAtLastDot cs = some (before, after)) :
    cs = before ++ '.' :: after ∧ '.' ∉ after := by
  rw [cutAtLastDot_eq] at h
  obtain ⟨⟨after', before'⟩, hcut, heq⟩ := Option.map_eq_some_iff.mp h
  cases heq
  obtain ⟨hafter, hcs⟩ := Text.eq_append_of_cutAt hcut
  refine ⟨?_, by simpa using hafter⟩
  have hreverse := congrArg List.reverse hcs
  simpa using hreverse

theorem cutAtLastDot_append (h : '.' ∉ after) :
    cutAtLastDot (before ++ '.' :: after) = some (before, after) := by
  have hreverse : (before ++ '.' :: after).reverse = after.reverse ++ '.' :: before.reverse := by
    simp
  rw [cutAtLastDot_eq, hreverse, Text.cutAt_append (by simpa using h)]
  simp

/-- The stem of a name is what stands before its last dot, if that is anything, and else the whole
name. -/
structure IsStem (name stem : String) : Prop where
  nonempty : stem ≠ ""
  cut : (∃ after, '.' ∉ after.toList ∧ name = stem ++ "." ++ after) ∨
    name = stem ∧ ∀ before after, '.' ∉ after.toList → name = before ++ "." ++ after → before = ""

theorem isStem_stem (h : name ≠ "") : IsStem name (stem name) := by
  unfold stem
  split
  · next c before after hcut =>
    obtain ⟨hname, hafter⟩ := eq_append_of_cutAtLastDot hcut
    refine ⟨by simp, .inl ⟨String.ofList after, by simpa using hafter, ?_⟩⟩
    rw [← String.toList_inj, hname]
    simp
  · next hcut =>
    refine ⟨h, .inr ⟨rfl, ?_⟩⟩
    intro before after hafter hname
    by_contra hbefore
    have hchars : name.toList = before.toList ++ '.' :: after.toList := by simp [hname]
    cases hfirst : before.toList with
    | nil => exact hbefore (String.toList_eq_nil_iff.mp hfirst)
    | cons c cs =>
      rw [hfirst] at hchars
      exact hcut c cs after.toList (by rw [hchars, cutAtLastDot_append hafter])

end Path

end Jukebox
