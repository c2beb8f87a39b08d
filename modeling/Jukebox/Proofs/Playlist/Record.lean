import Jukebox.Playlist.Snapshot

/-!
# A saved playlist is read as it was written

Each record is written with all its fields under their first names, so each field is found again;
what is optional is written as `null` where it is absent, and no value that is there is `null`.
-/

namespace Jukebox

namespace Json

variable {α : Type} {read : Value → Option α} {write : α → Value}

@[simp] theorem format_text (s : String) : format.text (.text s) = some s := rfl

@[simp] theorem format_flag (b : Bool) : format.flag (.flag b) = some b := rfl

theorem nullable_ofOption (o : Option α) (hread : ∀ a ∈ o, read (write a) = some a)
    (hnull : ∀ a, format.isNull (write a) = false) :
    format.nullable read (.ofOption write o) = some o := by
  cases o with
  | none => rfl
  | some a =>
    have hwritten := hread a rfl
    simp [Value.ofOption, Format.nullable, hnull, hwritten]

/-- A text that may be absent. -/
theorem nullable_text (s : Option String) :
    format.nullable format.text (.ofOption .text s) = some s :=
  nullable_ofOption s (fun s _ => format_text s) fun _ => rfl

theorem list_ofList (items : List α) (hread : ∀ a ∈ items, read (write a) = some a) :
    format.list read (.ofList write items) = some items := by
  have hitems : (items.map write).mapM read = some items := by
    induction items with
    | nil => rfl
    | cons a items ih =>
      have hfirst := hread a List.mem_cons_self
      have hrest := ih fun b hb => hread b (List.mem_cons_of_mem _ hb)
      rw [List.map_cons, List.mapM_cons, hfirst, hrest]
      rfl
  exact hitems

theorem natural_ofNat {n limit : Nat} (h : n ≤ limit) :
    format.natural limit (.ofNat n) = some n := by
  simp [Format.natural, format, Value.ofNat, h]

end Json

theorem Artist.read_toJson {artist : Artist} (h : ∀ id ∈ artist.id, id ≤ Text.maxWord) :
    Artist.read Json.format artist.toJson = some artist := by
  have hid : Json.format.nullable (Json.format.natural Text.maxWord)
      (.ofOption .ofNat artist.id) = some artist.id :=
    Json.nullable_ofOption _ (fun id hid => Json.natural_ofNat (h id hid)) fun _ => rfl
  have hfields : Json.format.fields Artist.fieldNames artist.toJson =
      some [("Name", .text artist.name), ("Id", .ofOption .ofNat artist.id)] := rfl
  simp [Artist.read, hfields, Format.required, Format.withDefault, List.lookup_cons, hid]

theorem Track.read_toJson {track : Track}
    (h : ∀ artist ∈ track.artists, ∀ id ∈ artist.id, id ≤ Text.maxWord) :
    Track.read Json.format track.toJson = some track := by
  have hartists : Json.format.list (Artist.read Json.format)
      (.ofList Artist.toJson track.artists) = some track.artists :=
    Json.list_ofList _ fun artist hartist => Artist.read_toJson (h artist hartist)
  have hfields : Json.format.fields Track.fieldNames track.toJson = some [
      ("RemoteId", .ofOption .text track.remoteId),
      ("Name", .text track.name),
      ("Image", .ofOption .text track.image),
      ("DetailUrl", .ofOption .text track.detailUrl),
      ("DirectUrl", .ofOption .text track.directUrl),
      ("InPlaylist", .flag track.inPlaylist),
      ("Artists", .ofList Artist.toJson track.artists)] := rfl
  simp [Track.read, hfields, Format.withDefault, List.lookup_cons, Json.nullable_text, hartists]

theorem PlaylistMeta.read_toJson (playlist : PlaylistMeta) :
    PlaylistMeta.read Json.format playlist.toJson = some playlist := by
  have hfields : Json.format.fields PlaylistMeta.fieldNames playlist.toJson = some [
      ("Id", .ofOption .text playlist.id),
      ("Name", .ofOption .text playlist.name),
      ("Image", .ofOption .text playlist.image),
      ("DirectUrl", .ofOption .text playlist.directUrl)] := rfl
  simp [PlaylistMeta.read, hfields, Format.withDefault, List.lookup_cons, Json.nullable_text]

/-- The numbers of its artists are words of 64 bits. -/
def Snapshot.HasWords (snapshot : Snapshot) : Prop :=
  ∀ track ∈ snapshot.tracks, ∀ artist ∈ track.artists, ∀ id ∈ artist.id, id ≤ Text.maxWord

theorem Snapshot.read_toJson {snapshot : Snapshot} (h : snapshot.HasWords) :
    Snapshot.read Json.format snapshot.toJson = some snapshot := by
  have hmode : Json.format.nullable (PlayMode.read Json.format)
      (.ofOption (fun mode => .text mode.name) snapshot.mode) = some snapshot.mode :=
    Json.nullable_ofOption _ (fun mode _ => PlayMode.ofName?_name mode) fun _ => rfl
  have htracks : Json.format.list (Track.read Json.format)
      (.ofList Track.toJson snapshot.tracks) = some snapshot.tracks :=
    Json.list_ofList _ fun track htrack => Track.read_toJson (h track htrack)
  have hplaylist : Json.format.nullable (PlaylistMeta.read Json.format)
      (.ofOption PlaylistMeta.toJson snapshot.playlist) = some snapshot.playlist :=
    Json.nullable_ofOption _ (fun playlist _ => PlaylistMeta.read_toJson playlist) fun _ => rfl
  have hfields : Json.format.fields Snapshot.fieldNames snapshot.toJson = some [
      ("Mode", .ofOption (fun mode => .text mode.name) snapshot.mode),
      ("MusicInfoList", .ofList Track.toJson snapshot.tracks),
      ("PlayListMeta", .ofOption PlaylistMeta.toJson snapshot.playlist)] := rfl
  simp [Snapshot.read, hfields, Format.withDefault, List.lookup_cons, hmode, htracks, hplaylist]

end Jukebox
