import Mathlib.Logic.Equiv.Basic
import Jukebox.Command.Reader
import Jukebox.Command.Reply
import Jukebox.Playback.Alone
import Jukebox.Proofs.Text

/-!
# Places that are typed

A place is typed counting from one.  Taking a track out and exchanging two tracks are single steps
of playback, so what is posted in answer is determined by the queue that the command finds: the
track at the place that was typed is taken out, and the answer names the track; the tracks at both
places are exchanged, and the answer names the places; and a place that the queue does not have
leaves all as it is, and the answer names it, counting from the same number each time
(`Command.typed_places`).
-/

namespace Jukebox

namespace Controller

variable {c d : Controller} {op : Nat} {request : Request} {answer : Answer} {run : PlaybackRun}

/-- A request that is answered in its first step is answered in no other way. -/
theorem completes_iff_of_begin (hlock : c.lockedBy = none)
    (h : c.begin op request = d.answer answer) :
    Completes op c (.begin request) run ↔ run = ⟨d, [], answer⟩ := by
  have hstep : c.step? op (.begin request) .go = some (d, .finished answer, []) := by
    simp [step?, Stage.need, hlock, locked, h, Controller.answer]
  constructor
  · intro hrun
    cases hrun with
    | step signal hsignal rest =>
      cases signal with
      | go =>
        obtain ⟨rfl, rfl, rfl⟩ : d = _ ∧ Stage.finished answer = _ ∧ [] = _ := by
          simpa using hstep.symm.trans hsignal
        cases rest with
        | finished => rfl
        | step signal hover => simp [step?, Stage.need] at hover
      | _ => simp [step?, Stage.need] at hsignal
  · rintro rfl
    exact .step .go hstep (.finished d answer)

end Controller

namespace Command

variable {sign message : String} {c d : Controller} {reply : Reply}

/-- Behind the sign the message holds these words. -/
def HasWords (sign message : String) (words : List String) : Prop :=
  ∃ body, Text.trimmed message.toList = sign.toList ++ body ∧
    Text.words body = words.map String.toList

/-- The message is a command for playback, which answers it from the one state of things in the
other, and this is posted. -/
def Posts (sign message : String) (c d : Controller) (reply : Reply) : Prop :=
  ∃ command request op run elapsed, read sign message = some (.ok command) ∧
    command.request? = some request ∧ Controller.Completes op c (.begin request) run ∧
    d = run.controller ∧ reply = command.reply sign elapsed (.ok (.answered run.answer))

/-- A place is typed, to take out the track there; further words are passed over. -/
def AsksToRemove (sign message : String) (p : Nat) : Prop :=
  0 < p ∧ ∃ name word more, HasWords sign message (name :: word :: more) ∧
    Text.lowercase name ∈ ["rm", "remove"] ∧ readNumber? word = some p

/-- Two places are typed, to exchange the tracks there; further words are passed over. -/
def AsksToExchange (sign message : String) (p q : Nat) : Prop :=
  0 < p ∧ 0 < q ∧ ∃ name first second more,
    HasWords sign message (name :: first :: second :: more) ∧
    Text.lowercase name ∈ ["move", "mv"] ∧ readNumber? first = some p ∧
    readNumber? second = some q

/-- What is posted of a place that is typed and that a queue of this length does not have, where
the answers count from `first`. -/
def missingText (first length p : Nat) : String :=
  "❌ " ++ s!"Posición fuera de rango: {first + (p - 1)} (la cola tiene {length} canciones)"

/-- The controller with other tracks to come. -/
def withItems (c : Controller) (items : List Track) : Controller :=
  c.update fun s => { s with queue := { s.queue with items } }

/-! ## What is read -/

theorem read_of_hasWords {name : String} {arguments : List String}
    (h : HasWords sign message (name :: arguments)) :
    read sign message = ofWords? (Text.lowercase name) arguments := by
  obtain ⟨body, hmessage, hwords⟩ := h
  have hbody : behind? sign.toList (Text.trimmed message.toList) = some body := by
    rw [hmessage, behind?, if_pos (List.isPrefixOf_iff_prefix.mpr (List.prefix_append _ _)),
      List.drop_left]
  rw [read, hbody]
  simp [hwords, Function.comp_def]

theorem readPlace?_of_readNumber? {word : String} {p : Nat} (hp : 0 < p)
    (h : readNumber? word = some p) : readPlace? word = some (p - 1) := by
  rw [readPlace?, h, Option.bind_some, if_neg (Nat.pos_iff_ne_zero.mp hp)]

theorem AsksToRemove.read_eq {p : Nat} (h : AsksToRemove sign message p) :
    read sign message = some (.ok (.remove (p - 1))) := by
  obtain ⟨hp, name, word, more, hwords, hname, hword⟩ := h
  have hread : readRemove (word :: more) = .ok (.remove (p - 1)) := by
    simp only [readRemove, List.map_cons, readPlace?_of_readNumber? hp hword]
  rw [read_of_hasWords hwords]
  rcases List.mem_pair.mp hname with hname | hname <;> rw [hname]
  · exact congrArg some hread
  · exact congrArg some hread

theorem AsksToExchange.read_eq {p q : Nat} (h : AsksToExchange sign message p q) :
    read sign message = some (.ok (.move (p - 1) (q - 1))) := by
  obtain ⟨hp, hq, name, first, second, more, hwords, hname, hfirst, hsecond⟩ := h
  have hread : readMove (first :: second :: more) = .ok (.move (p - 1) (q - 1)) := by
    simp only [readMove, List.map_cons, readPlace?_of_readNumber? hp hfirst,
      readPlace?_of_readNumber? hq hsecond]
  rw [read_of_hasWords hwords]
  rcases List.mem_pair.mp hname with hname | hname <;> rw [hname]
  · exact congrArg some hread
  · exact congrArg some hread

/-! ## What is posted -/

/-- The answer to a command that playback answers in one step. -/
theorem posts_iff_of_begin {command : Command} {request : Request} {answer : Answer}
    {next : Controller} (hlock : c.lockedBy = none)
    (hread : read sign message = some (.ok command)) (hrequest : command.request? = some request)
    (hbegin : ∀ op, c.begin op request = next.answer answer)
    (hreply : ∀ elapsed, command.reply sign elapsed (.ok (.answered answer)) = reply)
    {reply' : Reply} : Posts sign message c d reply' ↔ d = next ∧ reply' = reply := by
  constructor
  · rintro ⟨command', request', op, run, elapsed, hread', hrequest', hrun, rfl, rfl⟩
    obtain rfl : command = command' := by simpa using hread.symm.trans hread'
    obtain rfl : request = request' := Option.some.inj (hrequest.symm.trans hrequest')
    obtain rfl := (Controller.completes_iff_of_begin hlock (hbegin op)).mp hrun
    exact ⟨rfl, hreply elapsed⟩
  · rintro ⟨rfl, rfl⟩
    exact ⟨command, request, 0, _, 0, hread, hrequest,
      (Controller.completes_iff_of_begin hlock (hbegin 0)).mpr rfl, rfl, (hreply 0).symm⟩

theorem posts_remove_iff {index : Nat} {track : Track} {queue : Queue}
    (hlock : c.lockedBy = none) (hread : read sign message = some (.ok (.remove index)))
    (h : c.state.queue.remove index = .ok (track, queue)) :
    Posts sign message c d reply ↔
      d = c.update (fun s => { s with queue }) ∧
        reply = .text ("🗑️ Quitada de la cola: " ++ track.fullName) := by
  have hbegin (op : Nat) :
      c.begin op (.remove index) =
        (c.update fun s => { s with queue }).answer (.removed (.ok track)) := by
    simp only [Controller.begin, h]
  exact posts_iff_of_begin hlock hread rfl hbegin fun _ => rfl

theorem posts_remove_error_iff {index : Nat} {e : Error} (hlock : c.lockedBy = none)
    (hread : read sign message = some (.ok (.remove index)))
    (h : c.state.queue.remove index = .error e) :
    Posts sign message c d reply ↔ d = c ∧ reply = .text (failureText e) := by
  have hbegin (op : Nat) :
      c.begin op (.remove index) = c.answer (.removed (.error e)) := by
    simp only [Controller.begin, h]
  exact posts_iff_of_begin hlock hread rfl hbegin fun _ => rfl

theorem posts_exchange_iff {i j : Nat} {queue : Queue} (hlock : c.lockedBy = none)
    (hread : read sign message = some (.ok (.move i j)))
    (h : c.state.queue.exchange i j = .ok queue) :
    Posts sign message c d reply ↔
      d = c.update (fun s => { s with queue }) ∧
        reply = .text s!"↕️ Posiciones {i + 1} y {j + 1} intercambiadas" := by
  have hbegin (op : Nat) :
      c.begin op (.exchange i j) =
        (c.update fun s => { s with queue }).answer (.checked (.ok ())) := by
    simp only [Controller.begin, h]
  exact posts_iff_of_begin hlock hread rfl hbegin fun _ => rfl

theorem posts_exchange_error_iff {i j : Nat} {e : Error} (hlock : c.lockedBy = none)
    (hread : read sign message = some (.ok (.move i j)))
    (h : c.state.queue.exchange i j = .error e) :
    Posts sign message c d reply ↔ d = c ∧ reply = .text (failureText e) := by
  have hbegin (op : Nat) :
      c.begin op (.exchange i j) = c.answer (.checked (.error e)) := by
    simp only [Controller.begin, h]
  exact posts_iff_of_begin hlock hread rfl hbegin fun _ => rfl

end Command

namespace Queue

variable {q : Queue}

theorem remove_of_eq_append {first last : List Track} {track : Track}
    (h : q.items = first ++ track :: last) :
    q.remove first.length = .ok (track, { q with items := first ++ last }) := by
  have hhere : q.items[first.length]? = some track := by simp [h]
  have hrest : q.items.eraseIdx first.length = first ++ last := by
    rw [h, List.eraseIdx_append_of_length_le (Nat.le_refl _), Nat.sub_self, List.eraseIdx_cons_zero]
  simp only [remove, hhere, hrest]

theorem remove_of_length_le {index : Nat} (h : q.length ≤ index) :
    q.remove index = .error (.outOfRange index q.length) := by
  have hnone : q.items[index]? = none := List.getElem?_eq_none h
  simp only [remove, hnone]

/-- Two places of the queue exchange what stands there, and all other places keep it. -/
theorem exists_exchange_eq_ok {i j : Nat} (hi : i < q.length) (hj : j < q.length) :
    ∃ items, q.exchange i j = .ok { q with items } ∧
      ∀ k, items[k]? = q.items[Equiv.swap i j k]? := by
  have hfirst : q.items[i]? = some q.items[i] := List.getElem?_eq_getElem hi
  have hsecond : q.items[j]? = some q.items[j] := List.getElem?_eq_getElem hj
  refine ⟨(q.items.set i q.items[j]).set j q.items[i], by simp only [exchange, hfirst, hsecond], ?_⟩
  intro k
  rw [List.getElem?_set, List.getElem?_set, Equiv.swap_apply_def]
  have hi' : i < q.items.length := hi
  have hj' : j < q.items.length := hj
  grind

/-- Of two places the first one that the queue does not have is told. -/
theorem exchange_of_length_le {i j : Nat} (h : q.length ≤ i ∨ q.length ≤ j) :
    q.exchange i j = .error (.outOfRange (if q.length ≤ i then i else j) q.length) := by
  by_cases hi : q.length ≤ i
  · have hnone : q.items[i]? = none := List.getElem?_eq_none hi
    rw [exchange, hnone, if_pos hi]
  · have hj : q.length ≤ j := h.resolve_left hi
    have hi' : i < q.items.length := Nat.lt_of_not_le hi
    have hsome : q.items[i]? = some q.items[i] := List.getElem?_eq_getElem hi'
    have hnone : q.items[j]? = none := List.getElem?_eq_none hj
    rw [exchange, hsome, hnone, if_neg hi]

end Queue

namespace Command

/-- Where playback can be asked, a place that is typed and that the queue has, counting from one, is
the place that is meant: the track there is taken out, and what is posted names the track; the
tracks at two such places are exchanged, and what is posted names both.  A place that the queue does
not have changes nothing, and what is posted names it, of two such places the first one, and the
length of the queue. -/
theorem typed_places :
    ∃ first ≤ 1, ∀ (sign message : String) (c : Controller), c.lockedBy = none →
      (∀ p, AsksToRemove sign message p →
        (∀ before track after, c.state.queue.items = before ++ track :: after →
          before.length + 1 = p →
          ∀ d reply, Posts sign message c d reply ↔ d = withItems c (before ++ after) ∧
            reply = .text ("🗑️ Quitada de la cola: " ++ track.fullName)) ∧
        (c.state.queue.length < p → ∀ d reply, Posts sign message c d reply ↔
          d = c ∧ reply = .text (missingText first c.state.queue.length p))) ∧
      ∀ p q, AsksToExchange sign message p q →
        (p ≤ c.state.queue.length → q ≤ c.state.queue.length →
          ∃ items, (∀ k, items[k]? = c.state.queue.items[Equiv.swap (p - 1) (q - 1) k]?) ∧
            ∀ d reply, Posts sign message c d reply ↔ d = withItems c items ∧
              reply = .text s!"↕️ Posiciones {p} y {q} intercambiadas") ∧
        (c.state.queue.length < p ∨ c.state.queue.length < q →
          ∀ d reply, Posts sign message c d reply ↔ d = c ∧
            reply = .text (missingText first c.state.queue.length
              (if c.state.queue.length < p then p else q))) := by
  refine ⟨0, Nat.zero_le 1, ?_⟩
  intro sign message c hlock
  constructor
  · intro p hasks
    have hread := hasks.read_eq
    constructor
    · rintro before track after hitems rfl d reply
      exact posts_remove_iff hlock hread (Queue.remove_of_eq_append hitems)
    · intro hlength d reply
      have hremove := Queue.remove_of_length_le (Nat.le_sub_one_of_lt hlength)
      rw [missingText, Nat.zero_add]
      exact posts_remove_error_iff hlock hread hremove
  · intro p q hasks
    have hread := hasks.read_eq
    obtain ⟨hp, hq, -⟩ := hasks
    constructor
    · intro hlength hlength'
      obtain ⟨items, hexchange, hitems⟩ :=
        @Queue.exists_exchange_eq_ok c.state.queue (p - 1) (q - 1) (by omega) (by omega)
      refine ⟨items, hitems, fun d reply => ?_⟩
      have hposts := @posts_exchange_iff _ _ _ d reply _ _ _ hlock hread hexchange
      rwa [Nat.sub_add_cancel hp, Nat.sub_add_cancel hq] at hposts
    · intro hlength d reply
      have hexchange := @Queue.exchange_of_length_le c.state.queue (p - 1) (q - 1) (by omega)
      have hshown : (if c.state.queue.length ≤ p - 1 then p - 1 else q - 1) =
          (if c.state.queue.length < p then p else q) - 1 := by
        split <;> split <;> omega
      rw [hshown] at hexchange
      rw [missingText, Nat.zero_add]
      exact posts_exchange_error_iff hlock hread hexchange

/-- A track of a playlist by its number in the catalog and its name. -/
def titled (id name : String) : Track := { Track.remote id with name }

/-- Playback at its start with these tracks to come. -/
def startWith (items : List Track) : Controller :=
  withItems (.start ⟨default, ⟨[], .standard⟩, .empty⟩ 0 []) items

/-- Of three tracks the second one is taken out, the outer ones change places, and there is neither
a fourth nor a fifth one. -/
theorem typed_places_of_three :
    let c := startWith [titled "1" "uno", titled "2" "dos", titled "3" "tres"]
    c.lockedBy = none ∧ AsksToRemove "!" " !RM 2 " 2 ∧ AsksToRemove "!" "!rm 4" 4 ∧
      AsksToExchange "!" "!mv 1 3" 1 3 ∧ AsksToExchange "!" "!mv 5 4" 5 4 ∧
      Posts "!" " !RM 2 " c (withItems c [titled "1" "uno", titled "3" "tres"])
        (.text "🗑️ Quitada de la cola: dos") ∧
      (∃ d, d.state.queue.items[0]? = some (titled "3" "tres") ∧
        Posts "!" "!mv 1 3" c d (.text "↕️ Posiciones 1 y 3 intercambiadas")) ∧
      ∃ first ≤ 1,
        Posts "!" "!rm 4" c c (.text
          ("❌ " ++ s!"Posición fuera de rango: {first + 3} (la cola tiene {3} canciones)")) ∧
        Posts "!" "!mv 5 4" c c (.text
          ("❌ " ++ s!"Posición fuera de rango: {first + 4} (la cola tiene {3} canciones)")) := by
  intro c
  have hlock : c.lockedBy = none := rfl
  have hsecond : AsksToRemove "!" " !RM 2 " 2 :=
    ⟨by decide, "RM", "2", [], ⟨"RM 2".toList, by decide, by decide⟩, by decide +kernel, by decide⟩
  have hfourth : AsksToRemove "!" "!rm 4" 4 :=
    ⟨by decide, "rm", "4", [], ⟨"rm 4".toList, by decide, by decide⟩, by decide +kernel, by decide⟩
  have houter : AsksToExchange "!" "!mv 1 3" 1 3 :=
    ⟨by decide, by decide, "mv", "1", "3", [], ⟨"mv 1 3".toList, by decide, by decide⟩,
      by decide +kernel, by decide, by decide⟩
  have hbehind : AsksToExchange "!" "!mv 5 4" 5 4 :=
    ⟨by decide, by decide, "mv", "5", "4", [], ⟨"mv 5 4".toList, by decide, by decide⟩,
      by decide +kernel, by decide, by decide⟩
  obtain ⟨first, hfirst, hplaces⟩ := typed_places
  have hremoved := (hplaces "!" " !RM 2 " c hlock).1 2 hsecond
  have hmissing := (hplaces "!" "!rm 4" c hlock).1 4 hfourth
  have hmissing' := (hplaces "!" "!mv 5 4" c hlock).2 5 4 hbehind
  obtain ⟨items, hitems, hexchanged⟩ :=
    ((hplaces "!" "!mv 1 3" c hlock).2 1 3 houter).1 (by decide) (by decide)
  refine ⟨hlock, hsecond, hfourth, houter, hbehind, ?_, ⟨withItems c items, ?_, ?_⟩,
    first, hfirst, ?_, ?_⟩
  · exact (hremoved.1 [titled "1" "uno"] (titled "2" "dos") [titled "3" "tres"] rfl rfl _ _).mpr
      ⟨rfl, by decide +kernel⟩
  · exact (hitems 0).trans (by decide +kernel)
  · exact (hexchanged _ _).mpr ⟨rfl, rfl⟩
  · exact (hmissing.2 (by decide) _ _).mpr ⟨rfl, rfl⟩
  · exact (hmissing'.2 (by decide) _ _).mpr ⟨rfl, rfl⟩

/-- A text says a number. -/
def IsNamedIn (n : Nat) (text : String) : Prop := (toString n).toList <:+: text.toList

/-- The answer to a place that the queue has need not name the place, and neither need the answer to
a place that it does not have. -/
theorem typed_place_not_named :
    let c := startWith [titled "1" "uno", titled "2" "dos", titled "3" "tres"]
    (AsksToRemove "!" "!rm 2" 2 ∧ ∃ d text, Posts "!" "!rm 2" c d (.text text) ∧
      ¬IsNamedIn 2 text) ∧
    AsksToRemove "!" "!rm 5" 5 ∧ ∃ d text, Posts "!" "!rm 5" c d (.text text) ∧
      ¬IsNamedIn 5 text := by
  intro c
  have hlock : c.lockedBy = none := rfl
  have hsecond : AsksToRemove "!" "!rm 2" 2 :=
    ⟨by decide, "rm", "2", [], ⟨"rm 2".toList, by decide, by decide⟩, by decide +kernel, by decide⟩
  have hfifth : AsksToRemove "!" "!rm 5" 5 :=
    ⟨by decide, "rm", "5", [], ⟨"rm 5".toList, by decide, by decide⟩, by decide +kernel, by decide⟩
  have hremoved : c.state.queue.remove 1 = .ok (titled "2" "dos", _) :=
    @Queue.remove_of_eq_append _ [titled "1" "uno"] [titled "3" "tres"] _ rfl
  have hnone : c.state.queue.remove 4 = .error (.outOfRange 4 3) :=
    Queue.remove_of_length_le (by decide)
  refine ⟨⟨hsecond, _, _, (posts_remove_iff hlock hsecond.read_eq hremoved).mpr ⟨rfl, rfl⟩, ?_⟩,
    hfifth, _, _, (posts_remove_error_iff hlock hfifth.read_eq hnone).mpr ⟨rfl, rfl⟩, ?_⟩
  · unfold IsNamedIn
    decide +kernel
  · unfold IsNamedIn
    decide +kernel

end Command

end Jukebox
