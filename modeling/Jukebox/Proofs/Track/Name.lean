import Jukebox.Proofs.Link.Scheme
import Jukebox.Proofs.Path
import Jukebox.Track.Name

/-!
# Tracks that are shown without a name

A track is called by its title, by the last part of its link, by its number or by a word for the
unknown.  All of these say something except one: an address that ends with a slash has an empty last
part, and unlike a path without a file's name it is not shown as a whole instead
(`Track.nameless_iff`).
-/

namespace Jukebox.Track

variable {track : Track} {link : String}

/-! ## Where a name comes from -/

/-- What a track is called by. -/
inductive CalledBy (track : Track) : String → Prop
  | title (hname : track.name ≠ "") : CalledBy track track.name
  | address {link before last : String} (hname : track.name = "")
      (hkey : track.directKey? = some link) (hweb : isHttp link = true)
      (hlink : link = before ++ "/" ++ last) (hlast : '/' ∉ last.toList) : CalledBy track last
  | file {link file stem : String} (hname : track.name = "")
      (hkey : track.directKey? = some link) (hweb : isHttp link = false)
      (hfile : Path.fileName? link = some file) (hstem : Path.IsStem file stem) :
      CalledBy track stem
  | link {link : String} (hname : track.name = "") (hkey : track.directKey? = some link)
      (hweb : isHttp link = false) (hfile : Path.fileName? link = none) : CalledBy track link
  | number {id : String} (hname : track.name = "") (hkey : track.directKey? = none)
      (hid : track.remoteKey? = some id) : CalledBy track ("#" ++ id)
  | unknown (hname : track.name = "") (hkey : track.directKey? = none)
      (hid : track.remoteKey? = none) : CalledBy track "Desconocido"

/-- Nothing says what the track is called: it has no title, and its link is an address that ends
with a slash. -/
def IsNameless (track : Track) : Prop :=
  track.name = "" ∧
    ∃ link before, track.directKey? = some link ∧ isHttp link = true ∧ link = before ++ "/"

theorem ne_empty_of_directKey? (h : track.directKey? = some link) : link ≠ "" := by
  unfold directKey? nonEmpty? at h
  split at h
  · split_ifs at h with hempty
    cases h
    simpa using hempty
  · cases h

/-- There is a slash in every address that is known by its beginning. -/
theorem slash_mem_of_isHttp (h : isHttp link = true) : '/' ∈ link.toList := by
  obtain ⟨scheme, -, hprefix⟩ := Address.isHttp_iff.mp h
  exact hprefix.subset (by simp)

theorem afterLastSlash_of_isHttp (h : isHttp link = true) :
    '/' ∉ (afterLastSlash link).toList ∧ ∃ before, link = before ++ "/" ++ afterLastSlash link := by
  obtain ⟨last, hparts, hlast, hlink⟩ := Path.exists_last_part link
  have hafter : afterLastSlash link = last := by
    rw [afterLastSlash, List.getLastD_eq_getLast?, hparts]
    rfl
  rw [hafter]
  refine ⟨hlast, hlink.resolve_left ?_⟩
  rintro rfl
  exact hlast (slash_mem_of_isHttp h)

theorem calledBy_displayName (track : Track) : track.CalledBy track.displayName := by
  unfold displayName
  by_cases hname : track.name = ""
  · rw [if_neg (by simp [hname])]
    cases hkey : track.directKey? with
    | some link =>
      dsimp only
      unfold linkName
      split_ifs with hweb
      · obtain ⟨hlast, before, hlink⟩ := afterLastSlash_of_isHttp hweb
        exact .address hname hkey hweb hlink hlast
      · have hlocal : isHttp link = false := by simpa using hweb
        cases hfile : Path.fileName? link with
        | some file =>
          exact .file hname hkey hlocal hfile (Path.isStem_stem (Path.ne_empty_of_fileName? hfile))
        | none => exact .link hname hkey hlocal hfile
    | none =>
      cases hid : track.remoteKey? with
      | some id => exact .number hname hkey hid
      | none => exact .unknown hname hkey hid
  · rw [if_pos (by simpa using hname)]
    exact .title hname

/-! ## Names that say nothing -/

theorem CalledBy.eq_empty_iff {name : String} (h : track.CalledBy name) :
    name = "" ↔ track.IsNameless := by
  cases h with
  | title hname => exact iff_of_false hname fun h => hname h.1
  | @address link before last hname hkey hweb hlink hlast =>
    constructor
    · rintro rfl
      exact ⟨hname, link, before, hkey, hweb, by simpa using hlink⟩
    · rintro ⟨-, link', before', hkey', -, hlink'⟩
      obtain rfl : link = link' := Option.some.inj (hkey.symm.trans hkey')
      by_contra hne
      have hend : (before.toList ++ '/' :: name.toList).getLast? = some '/' := by
        have hchars := congrArg String.toList (hlink.symm.trans hlink')
        simp only [String.toList_append] at hchars
        simpa using congrArg List.getLast? hchars
      rw [List.getLast?_append_of_ne_nil _ (List.cons_ne_nil _ _), List.getLast?_cons_of_ne_nil
        (by simpa using hne)] at hend
      exact hlast (List.mem_of_getLast? hend)
  | @file link file stem hname hkey hweb hfile hstem =>
    refine iff_of_false hstem.nonempty ?_
    rintro ⟨-, link', -, hkey', hweb', -⟩
    obtain rfl : link = link' := Option.some.inj (hkey.symm.trans hkey')
    rw [hweb] at hweb'
    cases hweb'
  | link hname hkey hweb hfile =>
    refine iff_of_false (ne_empty_of_directKey? hkey) ?_
    rintro ⟨-, link', -, hkey', hweb', -⟩
    obtain rfl := Option.some.inj (hkey.symm.trans hkey')
    rw [hweb] at hweb'
    cases hweb'
  | number hname hkey hid =>
    refine iff_of_false (by simp) ?_
    rintro ⟨-, link', -, hkey', -⟩
    rw [hkey] at hkey'
    cases hkey'
  | unknown hname hkey hid =>
    refine iff_of_false (by decide) ?_
    rintro ⟨-, link', -, hkey', -⟩
    rw [hkey] at hkey'
    cases hkey'

theorem artistLine_eq_empty_iff (track : Track) :
    track.artistLine = "" ↔
      track.artists.length ≤ 1 ∧ ∀ artist ∈ track.artists, artist.name = "" := by
  unfold artistLine
  cases track.artists with
  | nil => simp
  | cons artist more =>
    cases more with
    | nil => simp
    | cons next more =>
      have hslash :
          '/' ∈ (" / ".intercalate ((artist :: next :: more).map Artist.name)).toList := by
        simp [String.toList_intercalate, Text.intercalate_cons]
      refine iff_of_false ?_ (by simp)
      intro hempty
      rw [hempty] at hslash
      cases hslash

/-- Every track is called by something, and what it is called by is not empty unless it is a
nameless address.  With its artists behind it, even that is shown as something if it has an artist
with a name or two artists. -/
theorem nameless_iff (track : Track) :
    track.CalledBy track.displayName ∧ (track.displayName = "" ↔ track.IsNameless) ∧
      (track.fullName = "" ↔ track.IsNameless ∧ track.artists.length ≤ 1 ∧
        ∀ artist ∈ track.artists, artist.name = "") := by
  have hcalled := calledBy_displayName track
  refine ⟨hcalled, hcalled.eq_empty_iff, ?_⟩
  rw [← hcalled.eq_empty_iff, ← artistLine_eq_empty_iff]
  unfold fullName
  split_ifs with hartists
  · rw [String.isEmpty_iff] at hartists
    simp [hartists]
  · rw [String.isEmpty_iff] at hartists
    simp [hartists]

end Jukebox.Track
