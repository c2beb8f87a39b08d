import Mathlib.Data.List.Forall2
import Jukebox.Catalog.Resolve

/-!
# Replies of the catalog that are understood

What a reply of the catalog may look like, and what it means.  A field may be absent, and one that
is optional may be `null`; a list may be empty, but not `null`.  Fields that nobody asks for do not
count, and those that are asked for stand in an object once at most.  The relations below say this
for the replies about tracks and about their streams: they hold of a value and a meaning exactly if
the value is read with that meaning, so a reply fails to be understood only if none holds of it.
-/

namespace Jukebox.Catalog

variable {α : Type} {names : List String} {name : String} {v : Json.Value}
  {fields known : List (String × Json.Value)} {Is : Json.Value → α → Prop}
  {read : Json.Value → Option α}

/-! ## Fields once at most -/

/-- None of the names stands twice. -/
def Once (names : List String) (fields : List (String × Json.Value)) : Prop :=
  ∀ name ∈ names, (fields.filter fun field => field.1 == name).length ≤ 1

instance (names : List String) (fields : List (String × Json.Value)) :
    Decidable (Once names fields) :=
  inferInstanceAs (Decidable (∀ name ∈ names, _))

theorem lookup_eq_head?_filter (fields : List (String × Json.Value)) (name : String) :
    fields.lookup name = (fields.filter fun field => field.1 == name).head?.map (·.2) := by
  induction fields with
  | nil => rfl
  | cons field fields ih =>
    obtain ⟨written, v⟩ := field
    rw [List.lookup_cons, List.filter_cons, ih, BEq.comm]
    cases written == name <;> rfl

/-- A name that stands twice is refused; one that stands once gives its value. -/
theorem pick_singleton (fields : List (String × Json.Value)) (name : String) :
    Format.pick fields [name] =
      if (fields.filter fun field => field.1 == name).length ≤ 1 then some (fields.lookup name)
      else none := by
  have hsame : (fun field : String × Json.Value => [name].contains field.1) =
      fun field => field.1 == name := by
    funext field
    exact List.contains_cons.trans (Bool.or_false _)
  rw [Format.pick, hsame, lookup_eq_head?_filter]
  generalize fields.filter (fun field => field.1 == name) = written
  match written with
  | [] => rfl
  | [field] => rfl
  | _ :: _ :: _ => exact (if_neg (by simp)).symm

theorem collect_cons (name : String) (names : List String) (fields : List (String × Json.Value)) :
    Format.collect ((name :: names).map ([·])) fields =
      (Format.collect (names.map ([·])) fields).bind fun rest =>
        (Format.pick fields [name]).map fun picked =>
          (picked.map (name, ·)).elim rest (· :: rest) := by
  rw [Format.collect, List.map_cons, List.foldr_cons]
  change (Format.collect (names.map ([·])) fields).bind _ = _
  congr 1
  funext rest
  cases Format.pick fields [name] with
  | none => rfl
  | some picked => cases picked <;> rfl

/-- The fields that are asked for are collected in the order in which they are asked for. -/
theorem collect_eq_some_iff :
    Format.collect (names.map ([·])) fields = some known ↔
      Once names fields ∧
        known = names.filterMap fun name => (fields.lookup name).map (name, ·) := by
  induction names generalizing known with
  | nil => simp [Format.collect, Once, eq_comm]
  | cons name names ih =>
    rw [collect_cons, Option.bind_eq_some_iff, Once, List.forall_mem_cons, List.filterMap_cons,
      pick_singleton]
    constructor
    · rintro ⟨rest, hrest, hknown⟩
      obtain ⟨honce, rfl⟩ := ih.mp hrest
      split at hknown
      · next hname =>
        refine ⟨⟨hname, honce⟩, ?_⟩
        cases hlookup : fields.lookup name <;>
          (rw [hlookup] at hknown; exact (Option.some.inj hknown).symm)
      · cases hknown
    · rintro ⟨⟨hname, honce⟩, rfl⟩
      refine ⟨_, ih.mpr ⟨honce, rfl⟩, ?_⟩
      rw [if_pos hname]
      cases fields.lookup name <;> rfl

theorem lookup_filterMap (names : List String) (name : String) :
    (names.filterMap fun name => (fields.lookup name).map (name, ·)).lookup name =
      if name ∈ names then fields.lookup name else none := by
  induction names with
  | nil => rfl
  | cons first names ih =>
    by_cases hname : name = first
    · subst hname
      cases hlookup : fields.lookup name with
      | none => simp [hlookup, ih]
      | some v => simp [hlookup]
    · have hother : (name == first) = false := beq_eq_false_iff_ne.mpr hname
      cases hlookup : fields.lookup first with
      | none => simp [hlookup, ih, hname]
      | some v => simp [hlookup, ih, hname, List.lookup_cons, hother]

/-! ## Records -/

/-- A record with these fields, read for some names: an object in which none of them stands twice,
or an array of the fields in their order, from which those at the end may be missing. -/
inductive IsRecord (names : List String) : Json.Value → List (String × Json.Value) → Prop
  | object {fields : List (String × Json.Value)} (h : Once names fields) :
    IsRecord names (.object fields) fields
  | array {items : List Json.Value} (h : items.length ≤ names.length) :
    IsRecord names (.array items) (names.zip items)

theorem IsRecord.isNull (h : IsRecord names v fields) : Json.format.isNull v = false := by
  cases h <;> rfl

theorem inOrder_singletons (names : List String) (items : List Json.Value) :
    Format.inOrder (names.map ([·])) items =
      if items.length ≤ names.length then some (names.zip items) else none := by
  have hheads : (names.map ([·])).filterMap List.head? = names := by
    rw [List.filterMap_map]
    exact List.filterMap_some
  rw [Format.inOrder, hheads, List.length_map]

/-- What is read of some fields is read of a record as its fields stand there. -/
theorem bind_fieldsOf_eq_some_iff {g : List (String × Json.Value) → Option α} {a : α}
    (hg : ∀ known fields, (∀ name ∈ names, known.lookup name = fields.lookup name) →
      g known = g fields) :
    (fieldsOf names v).bind g = some a ↔ ∃ fields, IsRecord names v fields ∧ g fields = some a := by
  constructor
  · intro h
    obtain ⟨known, hknown, hread⟩ := Option.bind_eq_some_iff.mp h
    cases v with
    | object fields =>
      obtain ⟨honce, rfl⟩ := collect_eq_some_iff.mp hknown
      refine ⟨fields, .object honce, ?_⟩
      rw [← hread]
      exact (hg _ _ fun name hname => by rw [lookup_filterMap, if_pos hname]).symm
    | array items =>
      replace hknown := (inOrder_singletons names items).symm.trans hknown
      split at hknown
      · next hlength =>
        cases hknown
        exact ⟨_, .array hlength, hread⟩
      · cases hknown
    | null | flag | number | text | unreadable => cases hknown
  · rintro ⟨fields, hrecord, hread⟩
    rw [← hread]
    cases hrecord with
    | object honce =>
      change (Format.collect (names.map ([·])) fields).bind g = _
      rw [collect_eq_some_iff.mpr ⟨honce, rfl⟩, Option.bind_some]
      exact hg _ _ fun name hname => by rw [lookup_filterMap, if_pos hname]
    | array hlength =>
      change (Format.inOrder (names.map ([·])) _).bind g = _
      rw [inOrder_singletons, if_pos hlength, Option.bind_some]

/-! ## Fields -/

/-- What a field may hold that is optional: nothing, `null`, or a value. -/
inductive IsOptional (Is : Json.Value → α → Prop) : Option Json.Value → Option α → Prop
  | absent : IsOptional Is none none
  | null : IsOptional Is (some .null) none
  | value {v : Json.Value} {a : α} (h : Is v a) : IsOptional Is (some v) (some a)

/-- What a field may hold that is a list: nothing, or the items one after the other. -/
inductive IsItems (Is : Json.Value → α → Prop) : Option Json.Value → List α → Prop
  | absent : IsItems Is none []
  | items {items : List Json.Value} {answers : List α} (h : List.Forall₂ Is items answers) :
    IsItems Is (some (.array items)) answers

theorem eq_null_of_isNull (h : Json.format.isNull v = true) : v = .null := by
  cases v with
  | null => rfl
  | _ => cases h

theorem withDefault_eq_some_iff {answer : Option α}
    (hread : ∀ v a, Is v a ↔ Json.format.isNull v = false ∧ read v = some a) :
    Format.withDefault fields name none (Json.format.nullable read) = some answer ↔
      IsOptional Is (fields.lookup name) answer := by
  rw [Format.withDefault]
  generalize fields.lookup name = held
  constructor
  · intro h
    cases held with
    | none =>
      cases h
      exact .absent
    | some v =>
      cases hnull : Json.format.isNull v with
      | true =>
        cases eq_null_of_isNull hnull
        cases h
        exact .null
      | false =>
        simp only [Format.nullable, hnull, Bool.false_eq_true, if_false] at h
        obtain ⟨a, ha, rfl⟩ := Option.map_eq_some_iff.mp h
        exact .value ((hread v a).mpr ⟨hnull, ha⟩)
  · intro h
    cases h with
    | absent => rfl
    | null => rfl
    | value h =>
      obtain ⟨hnull, hvalue⟩ := (hread _ _).mp h
      simp [Format.nullable, hnull, hvalue]

theorem mapM_eq_some_iff {items : List Json.Value} {answers : List α}
    (hread : ∀ v a, Is v a ↔ read v = some a) :
    items.mapM read = some answers ↔ List.Forall₂ Is items answers := by
  induction items generalizing answers with
  | nil => simp [eq_comm]
  | cons item items ih =>
    rw [List.mapM_cons]
    constructor
    · intro h
      obtain ⟨a, ha, h⟩ := Option.bind_eq_some_iff.mp h
      obtain ⟨rest, hrest, h⟩ := Option.bind_eq_some_iff.mp h
      cases h
      exact .cons ((hread item a).mpr ha) (ih.mp hrest)
    · intro h
      cases h with
      | cons hitem hitems =>
        rw [(hread _ _).mp hitem, ih.mpr hitems]
        rfl

theorem listField_eq_some_iff {answers : List α} (hread : ∀ v a, Is v a ↔ read v = some a) :
    listField fields name read = some answers ↔ IsItems Is (fields.lookup name) answers := by
  rw [listField, Format.withDefault]
  generalize fields.lookup name = held
  constructor
  · intro h
    cases held with
    | none =>
      cases h
      exact .absent
    | some v =>
      cases v with
      | array items => exact .items ((mapM_eq_some_iff hread).mp h)
      | _ => cases h
  · intro h
    cases h with
    | absent => rfl
    | items h => exact (mapM_eq_some_iff hread).mpr h

theorem withDefault_congr {absent : α} (h : known.lookup name = fields.lookup name) :
    Format.withDefault known name absent read = Format.withDefault fields name absent read := by
  rw [Format.withDefault, h, Format.withDefault]

theorem listField_congr (h : known.lookup name = fields.lookup name) :
    listField known name read = listField fields name read :=
  withDefault_congr h

/-! ## What is told of tracks and of their streams -/

/-- The value of a text. -/
def IsText (v : Json.Value) (s : String) : Prop := v = .text s

/-- The value of a number of the catalog. -/
def IsNumber (v : Json.Value) (n : Nat) : Prop := v = .ofNat n ∧ n ≤ Text.maxWord

/-- A record that tells of a stream. -/
def IsStream (v : Json.Value) (url : Option String) : Prop :=
  ∃ fields, IsRecord ["url"] v fields ∧ IsOptional IsText (fields.lookup "url") url

/-- A reply that tells of streams. -/
def IsStreams (v : Json.Value) (streams : List (Option String)) : Prop :=
  ∃ fields, IsRecord ["data"] v fields ∧ IsItems IsStream (fields.lookup "data") streams

/-- A record that tells of an artist. -/
def IsArtist (v : Json.Value) (artist : Option Nat × Option String) : Prop :=
  ∃ fields, IsRecord ["id", "name"] v fields ∧
    IsOptional IsNumber (fields.lookup "id") artist.1 ∧
    IsOptional IsText (fields.lookup "name") artist.2

/-- A record that tells of an album: all that counts is its picture. -/
def IsAlbum (v : Json.Value) (picture : Option String) : Prop :=
  ∃ fields, IsRecord ["picUrl"] v fields ∧ IsOptional IsText (fields.lookup "picUrl") picture

/-- A record that describes a track. -/
def IsDetail (v : Json.Value) (detail : SongDetail) : Prop :=
  ∃ fields, IsRecord ["name", "ar", "al"] v fields ∧
    IsOptional IsText (fields.lookup "name") detail.name ∧
    IsItems IsArtist (fields.lookup "ar") detail.artists ∧
    ∃ album, IsOptional IsAlbum (fields.lookup "al") album ∧ detail.picture = album.join

/-- A reply that describes tracks. -/
def IsDetails (v : Json.Value) (details : List SongDetail) : Prop :=
  ∃ fields, IsRecord ["songs"] v fields ∧ IsItems IsDetail (fields.lookup "songs") details

/-! ## Reading -/

theorem isText_iff {s : String} :
    IsText v s ↔ Json.format.isNull v = false ∧ Json.format.text v = some s := by
  cases v <;> simp [IsText, Json.format]

theorem isNumber_iff {n : Nat} :
    IsNumber v n ↔ Json.format.isNull v = false ∧ number v = some n := by
  constructor
  · rintro ⟨rfl, hword⟩
    exact ⟨rfl, by simp [number, Format.natural, Json.format, Json.Value.ofNat, hword]⟩
  · rintro ⟨-, h⟩
    obtain ⟨k, hk, h⟩ := Option.bind_eq_some_iff.mp h
    split at h
    · next hbounds =>
      cases h
      simp only [Bool.and_eq_true, decide_eq_true_eq] at hbounds
      refine ⟨?_, hbounds.2⟩
      rw [Json.Value.ofNat, Int.toNat_of_nonneg hbounds.1]
      cases v with
      | number value =>
        cases value with
        | integer value =>
          cases hk
          rfl
        | decimal => cases hk
      | _ => cases hk
    · cases h

theorem text_eq_some_iff {s : Option String} :
    Format.withDefault fields name none (Json.format.nullable Json.format.text) = some s ↔
      IsOptional IsText (fields.lookup name) s :=
  withDefault_eq_some_iff fun _ _ => isText_iff

theorem isStream_iff {url : Option String} :
    IsStream v url ↔ (fieldsOf ["url"] v).bind (fun fields =>
      Format.withDefault fields "url" none (Json.format.nullable Json.format.text)) =
        some url := by
  rw [bind_fieldsOf_eq_some_iff fun known fields h => withDefault_congr (h _ (by simp))]
  simp only [text_eq_some_iff]
  rfl

theorem isStreams_iff {streams : List (Option String)} :
    IsStreams v streams ↔ readStreams v = some streams := by
  refine Iff.symm ((bind_fieldsOf_eq_some_iff fun known fields h =>
    listField_congr (h _ (by simp))).trans ?_)
  exact exists_congr fun fields => and_congr_right fun _ =>
    listField_eq_some_iff fun v url => isStream_iff

theorem isAlbum_iff {picture : Option String} :
    IsAlbum v picture ↔ Json.format.isNull v = false ∧ (do
      Format.withDefault (← fieldsOf ["picUrl"] v) "picUrl" none
        (Json.format.nullable Json.format.text)) = some picture := by
  rw [Option.bind_eq_bind,
    bind_fieldsOf_eq_some_iff fun known fields h => withDefault_congr (h _ (by simp))]
  simp only [text_eq_some_iff]
  constructor
  · rintro ⟨fields, hrecord, hpicture⟩
    exact ⟨hrecord.isNull, fields, hrecord, hpicture⟩
  · rintro ⟨-, h⟩
    exact h

theorem isArtist_iff {artist : Option Nat × Option String} :
    IsArtist v artist ↔ (do
      let fields ← fieldsOf ["id", "name"] v
      return (← Format.withDefault fields "id" none (Json.format.nullable number),
        ← Format.withDefault fields "name" none (Json.format.nullable Json.format.text))) =
      some artist := by
  rw [Option.bind_eq_bind, bind_fieldsOf_eq_some_iff]
  · refine exists_congr fun fields => and_congr_right fun _ => ?_
    rw [← text_eq_some_iff, ← withDefault_eq_some_iff fun v n => isNumber_iff]
    generalize Format.withDefault fields "id" none (Json.format.nullable number) = id
    generalize Format.withDefault fields "name" none (Json.format.nullable Json.format.text) = name
    obtain ⟨_, _⟩ := artist
    cases id <;> cases name <;> simp
  · intro known fields h
    rw [withDefault_congr (h "id" (by simp)), withDefault_congr (h "name" (by simp))]

theorem isDetail_iff {detail : SongDetail} : IsDetail v detail ↔ readDetail v = some detail := by
  rw [readDetail, Option.bind_eq_bind, bind_fieldsOf_eq_some_iff]
  · refine exists_congr fun fields => and_congr_right fun _ => ?_
    dsimp only
    constructor
    · rintro ⟨hname, hartists, album, halbum, hpicture⟩
      have halbum := (withDefault_eq_some_iff fun v picture => isAlbum_iff).mpr halbum
      have hartists := (listField_eq_some_iff fun v artist => isArtist_iff (v := v)).mpr hartists
      rw [halbum, text_eq_some_iff.mpr hname, hartists]
      change some (⟨detail.name, detail.artists, album.join⟩ : SongDetail) = some detail
      rw [← hpicture]
    · intro h
      obtain ⟨album, halbum, h⟩ := Option.bind_eq_some_iff.mp h
      obtain ⟨name, hname, h⟩ := Option.bind_eq_some_iff.mp h
      obtain ⟨artists, hartists, h⟩ := Option.bind_eq_some_iff.mp h
      cases h
      exact ⟨text_eq_some_iff.mp hname,
        (listField_eq_some_iff fun v artist => isArtist_iff (v := v)).mp hartists, album,
        (withDefault_eq_some_iff fun v picture => isAlbum_iff).mp halbum, rfl⟩
  · intro known fields h
    dsimp only
    rw [withDefault_congr (h "al" (by simp)), withDefault_congr (h "name" (by simp)),
      listField_congr (h "ar" (by simp))]

theorem isDetails_iff {details : List SongDetail} :
    IsDetails v details ↔ readDetails v = some details := by
  refine Iff.symm ((bind_fieldsOf_eq_some_iff fun known fields h =>
    listField_congr (h _ (by simp))).trans ?_)
  exact exists_congr fun fields => and_congr_right fun _ =>
    listField_eq_some_iff fun v detail => isDetail_iff

end Jukebox.Catalog
