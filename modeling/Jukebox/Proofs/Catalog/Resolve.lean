import Jukebox.Proofs.Catalog.Replies
import Jukebox.Proofs.Json.RoundTrip
import Jukebox.Proofs.Web

/-!
# What resolving a track may change

A track of the catalog is first described, unless it has a name, and then its stream is asked for.
The two questions follow one another, so the web may answer the second in the light of the first.
`Described` says what becomes of a track until its stream is asked for, and `Resolves` how the whole
ends; whatever the catalog replies, the track is found in the end as it was described or as it came,
and its description is all that differs.  A track with a name asks for its stream alone, so it stays
as it is, and so does every track once the catalog has told what it is.
-/

namespace Jukebox.Catalog

variable {c : Catalog} {web : Web} {headers : Headers} {sent arrived : List WebRequest}
  {track found : Track} {id url : String} {detail : SongDetail} {details : List SongDetail}
  {streams : List (Option String)} {r : ResolvedTrack} {e : Error}

/-! ## The two questions -/

/-- The catalog tells what the tracks with this number are. -/
def TellsDetails (c : Catalog) (web : Web) (headers : Headers) (sent : List WebRequest)
    (id : String) (details : List SongDetail) : Prop :=
  c.Tells web headers sent "/song/detail" [("ids", id)] readDetails details

/-- The catalog tells what the tracks with this number play from. -/
def TellsStreams (c : Catalog) (web : Web) (headers : Headers) (sent : List WebRequest)
    (id : String) (streams : List (Option String)) : Prop :=
  c.Tells web headers sent "/song/url" [("id", id)] readStreams streams

/-- The request that asks what a track is. -/
def detailRequest (c : Catalog) (headers : Headers) (id : String) : WebRequest :=
  c.request "/song/detail" [("ids", id)] headers

/-- The request that asks what a track plays from. -/
def streamRequest (c : Catalog) (headers : Headers) (id : String) : WebRequest :=
  c.request "/song/url" [("id", id)] headers

theorem tells_iff {α : Type} {path : String} {query : List (String × String)}
    {read : Json.Value → Option α} {Is : Json.Value → α → Prop} {answer : α}
    (hread : ∀ v a, Is v a ↔ read v = some a) :
    c.Tells web headers sent path query read answer ↔
      ∃ body value, web.Answers sent (c.request path query headers) body ∧
        Json.read? body = some value ∧ Is value answer := by
  constructor
  · rintro ⟨body, hanswers, h⟩
    obtain ⟨value, hvalue, hanswer⟩ := Option.bind_eq_some_iff.mp h
    exact ⟨body, value, hanswers, hvalue, (hread value answer).mpr hanswer⟩
  · rintro ⟨body, value, hanswers, hvalue, hanswer⟩
    refine ⟨body, hanswers, ?_⟩
    rw [hvalue]
    exact (hread value answer).mp hanswer

/-- The catalog tells what a track is if its reply comes and looks as such replies do. -/
theorem tellsDetails_iff :
    c.TellsDetails web headers sent id details ↔
      ∃ body value, web.Answers sent (c.detailRequest headers id) body ∧
        Json.read? body = some value ∧ IsDetails value details :=
  tells_iff fun _ _ => isDetails_iff

theorem tellsStreams_iff :
    c.TellsStreams web headers sent id streams ↔
      ∃ body value, web.Answers sent (c.streamRequest headers id) body ∧
        Json.read? body = some value ∧ IsStreams value streams :=
  tells_iff fun _ _ => isStreams_iff

theorem streamRequest_address_ne (c : Catalog) (headers : Headers) (id : String) :
    (c.streamRequest headers id).address ≠ c.base ++ "/song/detail" := by
  intro heq
  have hpath := congrArg String.toList heq
  simp only [streamRequest, request, String.toList_append] at hpath
  exact absurd (List.append_cancel_left hpath) (by decide)

/-- The stream of the first track, if there is one that is not empty. -/
def firstStream (streams : List (Option String)) : Option String :=
  streams.head?.join.filter fun url => !url.isEmpty

theorem firstStream_eq_some_iff :
    firstStream streams = some url ↔ url ≠ "" ∧ ∃ rest, streams = some url :: rest := by
  rw [firstStream, Option.filter_eq_some_iff]
  have hempty : (!url.isEmpty) = true ↔ url ≠ "" := by simp
  rw [hempty, and_comm]
  refine and_congr_right fun _ => ?_
  cases streams <;> simp

theorem run_stream_of_tells (h : c.TellsStreams web headers sent id streams) :
    (c.stream web headers id).run.run sent =
      (.ok (firstStream streams), sent ++ [c.streamRequest headers id]) := by
  unfold stream
  rw [Exchange.run_bind_of_ok (run_askWith_of_tells h)]
  rfl

theorem run_stream_of_not_tells (h : ∀ streams, ¬ c.TellsStreams web headers sent id streams) :
    ∃ more, (more = [] ∨ more = [c.streamRequest headers id]) ∧
      (c.stream web headers id).run.run sent = (.error c.failed, sent ++ more) := by
  obtain ⟨more, hmore, hrun⟩ := run_askWith_of_not_tells h
  exact ⟨more, hmore, Exchange.run_bind_of_error hrun _⟩

/-! ## The course of a resolution -/

/-- What a track is when its stream is asked for, and the requests that have arrived by then. -/
inductive Described (c : Catalog) (web : Web) (headers : Headers) (id : String) (track : Track)
    (sent : List WebRequest) : Track → List WebRequest → Prop
  | named (hname : track.name ≠ "") : Described c web headers id track sent track sent
  | told {detail : SongDetail} {rest : List SongDetail} (hname : track.name = "")
    (h : c.TellsDetails web headers sent id (detail :: rest)) :
    Described c web headers id track sent (describe track id detail)
      (sent ++ [c.detailRequest headers id])
  | untold (hname : track.name = "") (h : c.TellsDetails web headers sent id []) :
    Described c web headers id track sent track (sent ++ [c.detailRequest headers id])

theorem isResolved_iff : track.isResolved = true ↔ track.name ≠ "" := by
  simp [Track.isResolved]

theorem run_resolve_of_described (hid : track.remoteKey? = some id)
    (h : Described c web headers id track sent found arrived) :
    (c.resolve web headers track).run.run sent =
      ((c.stream web headers id) >>= fun url =>
        (pure (url.map fun url => ⟨found, url⟩) : Exchange (Option ResolvedTrack))).run.run
          arrived := by
  unfold resolve
  rw [hid]
  dsimp only
  cases h with
  | named hname =>
    rw [if_pos (isResolved_iff.mpr hname)]
    rfl
  | told hname h =>
    rw [if_neg (by rw [isResolved_iff, not_not]; exact hname),
      Exchange.run_bind_of_ok (run_askWith_of_tells h)]
    rfl
  | untold hname h =>
    rw [if_neg (by rw [isResolved_iff, not_not]; exact hname),
      Exchange.run_bind_of_ok (run_askWith_of_tells h)]
    rfl

theorem run_resolve_of_tells (hid : track.remoteKey? = some id)
    (hdescribed : Described c web headers id track sent found arrived)
    (h : c.TellsStreams web headers arrived id streams) :
    (c.resolve web headers track).run.run sent =
      (.ok ((firstStream streams).map fun url => ⟨found, url⟩),
        arrived ++ [c.streamRequest headers id]) := by
  rw [run_resolve_of_described hid hdescribed, Exchange.run_bind_of_ok (run_stream_of_tells h)]
  rfl

theorem run_resolve_of_not_tells (hid : track.remoteKey? = some id)
    (hdescribed : Described c web headers id track sent found arrived)
    (h : ∀ streams, ¬ c.TellsStreams web headers arrived id streams) :
    ∃ more, (more = [] ∨ more = [c.streamRequest headers id]) ∧
      (c.resolve web headers track).run.run sent = (.error c.failed, arrived ++ more) := by
  obtain ⟨more, hmore, hrun⟩ := run_stream_of_not_tells h
  refine ⟨more, hmore, ?_⟩
  rw [run_resolve_of_described hid hdescribed, Exchange.run_bind_of_error hrun]

theorem run_resolve_of_undescribed (hid : track.remoteKey? = some id) (hname : track.name = "")
    (h : ∀ details, ¬ c.TellsDetails web headers sent id details) :
    ∃ more, (more = [] ∨ more = [c.detailRequest headers id]) ∧
      (c.resolve web headers track).run.run sent = (.error c.failed, sent ++ more) := by
  obtain ⟨more, hmore, hrun⟩ := run_askWith_of_not_tells h
  refine ⟨more, hmore, ?_⟩
  unfold resolve
  rw [hid]
  dsimp only
  rw [if_neg (by rw [isResolved_iff, not_not]; exact hname), Exchange.run_bind_of_error hrun]

theorem run_resolve_of_missing (hid : track.remoteKey? = none) :
    (c.resolve web headers track).run.run sent =
      (.error (.resolution "canción sin id ni enlace"), sent) := by
  unfold resolve
  rw [hid]
  rfl

/-- How a resolution ends: its result, and the requests that have arrived by then. -/
inductive Resolves (c : Catalog) (web : Web) (headers : Headers) (track : Track)
    (sent : List WebRequest) : Except Error (Option ResolvedTrack) → List WebRequest → Prop
  | missing (hid : track.remoteKey? = none) :
    Resolves c web headers track sent (.error (.resolution "canción sin id ni enlace")) sent
  | undescribed {id : String} {more : List WebRequest} (hid : track.remoteKey? = some id)
    (hname : track.name = "") (h : ∀ details, ¬ c.TellsDetails web headers sent id details)
    (hmore : more = [] ∨ more = [c.detailRequest headers id]) :
    Resolves c web headers track sent (.error c.failed) (sent ++ more)
  | silent {id : String} {found : Track} {arrived more : List WebRequest}
    (hid : track.remoteKey? = some id)
    (hdescribed : Described c web headers id track sent found arrived)
    (h : ∀ streams, ¬ c.TellsStreams web headers arrived id streams)
    (hmore : more = [] ∨ more = [c.streamRequest headers id]) :
    Resolves c web headers track sent (.error c.failed) (arrived ++ more)
  | told {id : String} {found : Track} {arrived : List WebRequest}
    {streams : List (Option String)} (hid : track.remoteKey? = some id)
    (hdescribed : Described c web headers id track sent found arrived)
    (h : c.TellsStreams web headers arrived id streams) :
    Resolves c web headers track sent (.ok ((firstStream streams).map fun url => ⟨found, url⟩))
      (arrived ++ [c.streamRequest headers id])

/-- A track that cannot be described is one whose description is asked for in vain. -/
theorem described_or (c : Catalog) (web : Web) (headers : Headers) (id : String) (track : Track)
    (sent : List WebRequest) :
    (∃ found arrived, Described c web headers id track sent found arrived) ∨
      track.name = "" ∧ ∀ details, ¬ c.TellsDetails web headers sent id details := by
  by_cases hname : track.name = ""
  · by_cases htells : ∃ details, c.TellsDetails web headers sent id details
    · obtain ⟨_ | ⟨detail, rest⟩, hdetails⟩ := htells
      · exact .inl ⟨_, _, .untold hname hdetails⟩
      · exact .inl ⟨_, _, .told hname hdetails⟩
    · exact .inr ⟨hname, not_exists.mp htells⟩
  · exact .inl ⟨_, _, .named hname⟩

/-- Every resolution ends in one of these ways. -/
theorem resolves {result : Except Error (Option ResolvedTrack)}
    (h : (c.resolve web headers track).run.run sent = (result, arrived)) :
    Resolves c web headers track sent result arrived := by
  cases hid : track.remoteKey? with
  | none =>
    cases (run_resolve_of_missing hid).symm.trans h
    exact .missing hid
  | some id =>
    obtain ⟨found, before, hdescribed⟩ | ⟨hname, hsilent⟩ :=
      described_or c web headers id track sent
    · by_cases htells : ∃ streams, c.TellsStreams web headers before id streams
      · obtain ⟨streams, hstreams⟩ := htells
        cases (run_resolve_of_tells hid hdescribed hstreams).symm.trans h
        exact .told hid hdescribed hstreams
      · have hsilent := not_exists.mp htells
        obtain ⟨more, hmore, hrun⟩ := run_resolve_of_not_tells hid hdescribed hsilent
        cases hrun.symm.trans h
        exact .silent hid hdescribed hsilent hmore
    · obtain ⟨more, hmore, hrun⟩ := run_resolve_of_undescribed hid hname hsilent
      cases hrun.symm.trans h
      exact .undescribed hid hname hsilent hmore

theorem Resolves.of_ok {answer : Option ResolvedTrack}
    (h : Resolves c web headers track sent (.ok answer) arrived) :
    ∃ id found before streams, track.remoteKey? = some id ∧
      Described c web headers id track sent found before ∧
      c.TellsStreams web headers before id streams ∧
      answer = (firstStream streams).map fun url => ⟨found, url⟩ := by
  cases h with
  | told hid hdescribed h => exact ⟨_, _, _, _, hid, hdescribed, h, rfl⟩

/-- A question that the resolution of a track comes to is asked in vain. -/
def AsksInVain (c : Catalog) (web : Web) (headers : Headers) (track : Track)
    (sent : List WebRequest) : Prop :=
  ∃ id, track.remoteKey? = some id ∧
    (track.name = "" ∧ (∀ details, ¬ c.TellsDetails web headers sent id details) ∨
      ∃ found before, Described c web headers id track sent found before ∧
        ∀ streams, ¬ c.TellsStreams web headers before id streams)

theorem Resolves.of_error (h : Resolves c web headers track sent (.error e) arrived) :
    track.remoteKey? = none ∧ e = .resolution "canción sin id ni enlace" ∨
      AsksInVain c web headers track sent ∧ e = c.failed := by
  cases h with
  | missing hid => exact .inl ⟨hid, rfl⟩
  | undescribed hid hname h => exact .inr ⟨⟨_, hid, .inl ⟨hname, h⟩⟩, rfl⟩
  | silent hid hdescribed h => exact .inr ⟨⟨_, hid, .inr ⟨_, _, hdescribed, h⟩⟩, rfl⟩

/-! ## What differs in the end -/

/-- Only the description of a track differs. -/
theorem Described.keeps (h : Described c web headers id track sent found arrived) :
    found.remoteId = track.remoteId ∧ found.directUrl = track.directUrl ∧
      found.inPlaylist = track.inPlaylist := by
  cases h <;> exact ⟨rfl, rfl, rfl⟩

/-- What has been described has a name. -/
theorem describe_name_ne (track : Track) (id : String) (detail : SongDetail) :
    (describe track id detail).name ≠ "" := by
  change (detail.name.filter fun name => !name.isEmpty).getD "_" ≠ ""
  cases hname : detail.name.filter fun name => !name.isEmpty with
  | none => decide
  | some name =>
    obtain ⟨-, hfull⟩ := Option.filter_eq_some_iff.mp hname
    simpa using hfull

/-- Resolving the track never asks what it is, and changes nothing about it. -/
def StaysAsIs (track : Track) : Prop :=
  ∀ (c : Catalog) (web : Web) (headers : Headers) (sent : List WebRequest),
    let run := (c.resolve web headers track).run.run sent
    (∀ r, run.1 = .ok (some r) → r.track = track) ∧
      ∃ asked, run.2 = sent ++ asked ∧ ∀ q ∈ asked, q.address ≠ c.base ++ "/song/detail"

theorem Described.eq_of_named (h : Described c web headers id track sent found arrived)
    (hname : track.name ≠ "") : found = track ∧ arrived = sent := by
  cases h with
  | named => exact ⟨rfl, rfl⟩
  | told hempty => exact absurd hempty hname
  | untold hempty => exact absurd hempty hname

theorem staysAsIs_of_named (hname : track.name ≠ "") : StaysAsIs track := by
  intro c web headers sent
  have hstream : ∀ id, ∀ q ∈ [c.streamRequest headers id], q.address ≠ c.base ++ "/song/detail" :=
    fun id q hq => by
      rw [List.mem_singleton.mp hq]
      exact streamRequest_address_ne c headers id
  generalize hrun : (c.resolve web headers track).run.run sent = run
  obtain ⟨result, arrived⟩ := run
  -- With a name it is found as it came, before any request; all that is asked for is its stream.
  cases resolves hrun with
  | missing hid => exact ⟨fun r hr => (by cases hr), [], by simp⟩
  | undescribed hid hempty => exact absurd hempty hname
  | silent hid hdescribed h hmore =>
    obtain ⟨rfl, rfl⟩ := hdescribed.eq_of_named hname
    refine ⟨fun r hr => (by cases hr), _, rfl, ?_⟩
    rcases hmore with rfl | rfl
    · simp
    · exact hstream _
  | told hid hdescribed h =>
    obtain ⟨rfl, rfl⟩ := hdescribed.eq_of_named hname
    refine ⟨fun r hr => ?_, _, rfl, hstream _⟩
    obtain ⟨url, -, rfl⟩ := Option.map_eq_some_iff.mp (Except.ok.inj hr)
    rfl

/-- What plays in the end is the track as it was described. -/
theorem resolve_track (hid : track.remoteKey? = some id)
    (hdescribed : Described c web headers id track sent found arrived)
    (h : ((c.resolve web headers track).run.run sent).1 = .ok (some r)) :
    r.track = found ∧ r.streamUrl ≠ "" := by
  by_cases htells : ∃ streams, c.TellsStreams web headers arrived id streams
  · obtain ⟨streams, hstreams⟩ := htells
    rw [run_resolve_of_tells hid hdescribed hstreams] at h
    obtain ⟨url, hurl, rfl⟩ := Option.map_eq_some_iff.mp (Except.ok.inj h)
    exact ⟨rfl, (firstStream_eq_some_iff.mp hurl).1⟩
  · obtain ⟨more, -, hrun⟩ := run_resolve_of_not_tells hid hdescribed (not_exists.mp htells)
    rw [hrun] at h
    cases h

theorem resolve_keeps (h : ((c.resolve web headers track).run.run sent).1 = .ok (some r)) :
    r.track.remoteId = track.remoteId ∧ r.track.directUrl = track.directUrl ∧
      r.track.inPlaylist = track.inPlaylist ∧ r.streamUrl ≠ "" := by
  obtain ⟨id, found, before, streams, hid, hdescribed, -, -⟩ := (resolves (Prod.ext h rfl)).of_ok
  obtain ⟨rfl, hfull⟩ := resolve_track hid hdescribed h
  obtain ⟨hremote, hdirect, hplaylist⟩ := hdescribed.keeps
  exact ⟨hremote, hdirect, hplaylist, hfull⟩

section

variable (c web headers track sent)

/-- A track is not found exactly if the reply about its stream begins with none. -/
theorem resolve_eq_none_iff :
    ((c.resolve web headers track).run.run sent).1 = .ok none ↔
      ∃ id found before streams, track.remoteKey? = some id ∧
        Described c web headers id track sent found before ∧
        c.TellsStreams web headers before id streams ∧
        ¬ ∃ url rest, streams = some url :: rest ∧ url ≠ "" := by
  have hnone : ∀ streams, firstStream streams = none ↔
      ¬ ∃ url rest, streams = some url :: rest ∧ url ≠ "" := by
    intro streams
    rw [Option.eq_none_iff_forall_ne_some, not_exists]
    refine forall_congr' fun url => not_congr ?_
    rw [firstStream_eq_some_iff, exists_and_right, and_comm]
  constructor
  · intro h
    obtain ⟨id, found, before, streams, hid, hdescribed, htells, hanswer⟩ :=
      (resolves (Prod.ext h rfl)).of_ok
    have hempty := Option.map_eq_none_iff.mp hanswer.symm
    exact ⟨id, found, before, streams, hid, hdescribed, htells, (hnone streams).mp hempty⟩
  · rintro ⟨id, found, before, streams, hid, hdescribed, htells, hempty⟩
    rw [run_resolve_of_tells hid hdescribed htells, (hnone streams).mpr hempty]
    rfl

/-- A resolution fails exactly if the track has no number or a question is asked in vain. -/
theorem resolve_eq_error_iff (e : Error) :
    ((c.resolve web headers track).run.run sent).1 = .error e ↔
      track.remoteKey? = none ∧ e = .resolution "canción sin id ni enlace" ∨
        AsksInVain c web headers track sent ∧ e = c.failed := by
  constructor
  · intro h
    exact (resolves (Prod.ext h rfl)).of_error
  · rintro (⟨hid, rfl⟩ | ⟨⟨id, hid, ⟨hname, h⟩ | ⟨found, before, hdescribed, h⟩⟩, rfl⟩)
    · rw [run_resolve_of_missing hid]
    · obtain ⟨more, -, hrun⟩ := run_resolve_of_undescribed hid hname h
      rw [hrun]
    · obtain ⟨more, -, hrun⟩ := run_resolve_of_not_tells hid hdescribed h
      rw [hrun]

theorem remoteKey?_eq_none_iff :
    track.remoteKey? = none ↔ track.remoteId = none ∨ track.remoteId = some "" := by
  unfold Track.remoteKey? nonEmpty?
  cases track.remoteId <;> simp

end

/-- A reply with one track that has no name, no artist and no picture. -/
def terseDetails : Json.Value :=
  .object [("songs", .array [.object [("name", .null), ("al", .object [])]])]

theorem isDetails_terseDetails : IsDetails terseDetails [⟨none, [], none⟩] := by
  refine ⟨_, .object (by decide), .items (.cons ?_ .nil)⟩
  refine ⟨_, .object (by decide), .null, .absent, some none, .value ?_, rfl⟩
  exact ⟨[], .object (by decide), .absent⟩

end Jukebox.Catalog
