import Jukebox.Config.Store
import Jukebox.Proofs.Session.Pairs
import Jukebox.Proofs.Yaml.RoundTrip

/-!
# Settings that are written are read back

Every field is written as a node that its reader takes for the value again.  So settings whose
numbers are in their bounds, and whose headers have each name once, come back as they were
(`Config.ofYaml?_toYaml`).  The standard settings are such, and stay so under every change.
-/

namespace Jukebox

namespace Yaml

variable {n limit : Nat} {x : Single} {fields : List (String × Setting)}

/-! ## Values -/

/-- A number of single precision is written as a word and read back. -/
def ReadsBack (x : Single) : Prop :=
  IsPlainWord (singleText x).toList ∧ (readReal? (singleText x).toList).map Real.single = some x

instance (x : Single) : Decidable (ReadsBack x) :=
  inferInstanceAs (Decidable (_ ∧ _))

@[simp]
theorem format_single (h : ReadsBack x) : format.single (nodeOf (.single x)) = some x := by
  rw [nodeOf]
  exact h.2

@[simp]
theorem format_text (s : String) : format.text (nodeOf (.text s)) = some s := by
  rw [nodeOf]
  rfl

@[simp]
theorem format_flag (b : Bool) : format.flag (nodeOf (.flag b)) = some b := by
  rw [nodeOf]
  cases b <;> rfl

theorem format_natural (h : n ≤ limit) (hlimit : limit ≤ Text.maxWord) :
    format.natural limit (nodeOf (.number n)) = some n := by
  have hread : format.integer (nodeOf (.number n)) = some (n : Int) := by
    rw [nodeOf]
    exact readInteger?_toString (by rw [Text.signedBound]; omega) (by omega)
  simp [Format.natural, hread, h]

theorem format_signedWord {n : Int} (hlow : -(Text.signedBound : Int) ≤ n)
    (hhigh : n < Text.signedBound) : format.signedWord (nodeOf (.number n)) = some n := by
  have hread : format.integer (nodeOf (.number n)) = some n := by
    rw [nodeOf]
    refine readInteger?_toString hlow ?_
    rw [Text.signedBound] at hhigh
    rw [Text.maxWord]
    omega
  simp [Format.signedWord, hread, hlow, hhigh]

theorem format_entries (fields : List (String × Setting)) :
    format.entries (nodeOf (.record fields)) =
      some (fields.map fun field => (field.1, nodeOf field.2)) := by
  rw [nodeOf, entriesOf_eq_map]
  exact List.mapM_map.trans List.mapM_pure

end Yaml

open Yaml

/-- The numbers of the loudness are read back. -/
def Volume.ReadsBack (v : Volume) : Prop :=
  Yaml.ReadsBack v.default ∧ Yaml.ReadsBack v.min ∧ Yaml.ReadsBack v.max

instance (v : Volume) : Decidable v.ReadsBack :=
  inferInstanceAs (Decidable (_ ∧ _ ∧ _))

theorem Volume.read_record {v : Volume} (h : v.ReadsBack) :
    Volume.read Yaml.format (nodeOf v.record) = some v := by
  have hfields : Yaml.format.fields Volume.fieldNames (nodeOf v.record) =
      some [("default", nodeOf (.single v.default)), ("min", nodeOf (.single v.min)),
        ("max", nodeOf (.single v.max))] := rfl
  simp [Volume.read, hfields, Format.withDefault, List.lookup_cons, h.1, h.2.1, h.2.2]

namespace Config

variable {c : Config}

/-- Settings whose numbers are in their bounds, and whose headers have short names and each of them
once. -/
structure Writable (c : Config) : Prop where
  version : c.version ≤ maxVersion
  minutes_low : -(Text.signedBound : Int) ≤ c.cookieRefreshIntervalMinutes
  minutes_high : c.cookieRefreshIntervalMinutes < Text.signedBound
  reports : c.maxFailureReports ≤ Text.maxWord
  volume : c.volume.ReadsBack
  names : c.header.names.Nodup
  short : ∀ name ∈ c.header.names, (scalarText name).length ≤ 1024

theorem readHeaders_record {header : Headers} (h : header.names.Nodup) :
    readHeaders Yaml.format
        (nodeOf (.record (header.map fun entry => (entry.1, .text entry.2)))) = some header := by
  have hpairs : ((header.map fun entry => (entry.1, Setting.text entry.2)).map
      fun field => (field.1, nodeOf field.2)).mapM
        (fun entry => (Yaml.format.text entry.2).map fun value => (entry.1, value)) =
          some header := by
    rw [List.mapM_map, List.mapM_map]
    exact List.mapM_pure.trans (congrArg some (List.map_id header))
  simp only [readHeaders, format_entries, bind, Option.bind_some, hpairs]
  exact congrArg some (Pairs.nil_override h)

theorem readReports_record (h : c.maxFailureReports ≤ Text.maxWord) :
    readReports Yaml.format (nodeOf (.record [("maxPerCascade", .number c.maxFailureReports)])) =
      some c.maxFailureReports := by
  have hfields : Yaml.format.fields [["maxPerCascade"]]
      (nodeOf (.record [("maxPerCascade", .number c.maxFailureReports)])) =
        some [("maxPerCascade", nodeOf (.number c.maxFailureReports))] := rfl
  simp [readReports, hfields, Format.withDefault, format_natural h]

theorem read_record (h : c.Writable) : read Yaml.format (nodeOf c.record) = some c := by
  have hfields : Yaml.format.fields fieldNames (nodeOf c.record) = some [
      ("version", nodeOf (.number c.version)),
      ("playMode", nodeOf (.text c.playMode.name)),
      ("apiBaseUrl", nodeOf (.text c.apiBaseUrl)),
      ("isQrLogin", nodeOf (.flag c.isQrLogin)),
      ("cookieRefreshIntervalMinutes", nodeOf (.number c.cookieRefreshIntervalMinutes)),
      ("autoPauseEnabled", nodeOf (.flag c.autoPauseEnabled)),
      ("header", nodeOf (.record (c.header.map fun entry => (entry.1, .text entry.2)))),
      ("defaultImageUrl", nodeOf (.text c.defaultImageUrl)),
      ("commandPrefix", nodeOf (.text c.commandPrefix)),
      ("songListsDir", nodeOf (.text c.songListsDir)),
      ("volume", nodeOf c.volume.record),
      ("failureReports", nodeOf (.record [("maxPerCascade", .number c.maxFailureReports)]))] := rfl
  have hversion := format_natural h.version (by decide)
  have hmode : PlayMode.read Yaml.format (nodeOf (.text c.playMode.name)) = some c.playMode := by
    have hname : Yaml.format.alternative (nodeOf (.text c.playMode.name)) =
        some c.playMode.name := by
      rw [nodeOf]
      rfl
    rw [PlayMode.read, hname, Option.bind_some, PlayMode.ofName?_name]
  have hminutes := format_signedWord h.minutes_low h.minutes_high
  have hheader := readHeaders_record h.names
  have hvolume := Volume.read_record h.volume
  have hreports := readReports_record h.reports
  simp [read, hfields, Format.withDefault, List.lookup_cons, hversion, hmode, hminutes, hheader,
    hvolume, hreports]

theorem Writable.legible (h : c.Writable) : Legible c.record := by
  have hfields : ∀ name ∈ fieldNames.flatten, (scalarText name).length ≤ 1024 := by decide +kernel
  have hnumbers : ∀ name ∈ Volume.fieldNames.flatten, (scalarText name).length ≤ 1024 := by
    decide +kernel
  have hmost : (scalarText "maxPerCascade").length ≤ 1024 := by decide +kernel
  have hheader : FieldsLegible (c.header.map fun entry => (entry.1, .text entry.2)) := by
    rw [fieldsLegible_iff, List.map_map, List.map_map]
    refine ⟨h.short, fun value hvalue => ?_⟩
    obtain ⟨entry, -, rfl⟩ := List.mem_map.mp hvalue
    trivial
  have hvolume : Legible c.volume.record := by
    obtain ⟨hdefault, hmin, hmax⟩ := h.volume
    rw [Volume.record, Legible, fieldsLegible_iff]
    exact ⟨hnumbers, by simp [Legible, hdefault.1, hmin.1, hmax.1]⟩
  have hreports : FieldsLegible [("maxPerCascade", .number c.maxFailureReports)] := by
    simp [Legible, FieldsLegible, hmost]
  rw [record, Legible, fieldsLegible_iff]
  exact ⟨hfields, by simp [Legible, hheader, hvolume, hreports]⟩

/-- Settings that are written are read back. -/
theorem ofYaml?_toYaml (h : c.Writable) : ofYaml? c.toYaml = some c := by
  have hread : Node.read? c.toYaml = some (nodeOf c.record) := by
    have hlegible := h.legible
    rw [record, Legible] at hlegible
    exact Node.read?_document hlegible
  rw [ofYaml?, hread, Option.bind_some, read_record h]

theorem writable_standard : standard.Writable where
  version := by decide
  minutes_low := by decide
  minutes_high := by decide
  reports := by decide
  volume := by decide +kernel
  names := by decide
  short := by decide +kernel

theorem Writable.withMode (h : c.Writable) (mode : PlayMode) : (c.withMode mode).Writable :=
  { h with }

theorem Writable.withSession (h : c.Writable) (cookie : String) (qr : Bool) :
    (c.withSession cookie qr).Writable := by
  have hcookie : (scalarText cookieHeader).length ≤ 1024 := by decide +kernel
  refine { h with names := ?_, short := ?_ }
  · exact @Pairs.nodup_override c.header [(cookieHeader, cookie)] h.names
  · intro name hname
    have hset : name ∈ (c.header.set cookieHeader cookie).names := hname
    rw [Pairs.names_set] at hset
    split_ifs at hset with hmem
    · exact h.short name hset
    · rcases List.mem_append.mp hset with hset | hset
      · exact h.short name hset
      · rwa [List.mem_singleton.mp hset]

end Config

end Jukebox
