import Mathlib.Data.List.Nodup
import Mathlib.Data.List.Basic
import Jukebox.Presence

/-!
# The listeners that are counted are those who are there

The bot counts its listeners one change at a time, and anew only when it moves itself.  Here the
count is compared with the whereabouts of all clients: after any number of changes the two agree,
as long as each roster tells who is where after its change.
-/

namespace Jukebox

namespace Roster

/-- Dropping what comes twice leaves nothing twice. -/
theorem nodup_eraseDups (clients : List Nat) : clients.eraseDups.Nodup := by
  induction hlength : clients.length using Nat.strongRecOn generalizing clients with
  | ind n ih =>
    cases clients with
    | nil => simp
    | cons client clients =>
      rw [List.eraseDups_cons, List.nodup_cons]
      constructor
      · rw [List.mem_eraseDups, List.mem_filter]
        rintro ⟨-, hne⟩
        simp at hne
      · apply ih _ _ _ rfl
        have hle := List.length_filter_le (fun other => !other == client) clients
        rw [← hlength, List.length_cons]
        omega

end Roster

/-- The voice channel of each client, the bot included; bots other than this one have none. -/
abbrev Whereabouts := Nat → Option Nat

namespace Whereabouts

variable {v : Whereabouts} {self client : Nat} {target : Option Nat} {roster : Roster}

/-- A client goes to another channel, or to none. -/
def move (v : Whereabouts) (client : Nat) (target : Option Nat) : Whereabouts :=
  fun other => if other = client then target else v other

/-- Somebody other than the bot is in the bot's channel. -/
def Listens (v : Whereabouts) (self client : Nat) : Prop :=
  client ≠ self ∧ ∃ channel, v self = some channel ∧ v client = some channel

/-- The roster lists who is where.  Whether it lists the bot does not matter. -/
def Lists (v : Whereabouts) (self : Nat) (roster : Roster) : Prop :=
  ∀ client channel, client ≠ self → ((client, channel) ∈ roster ↔ v client = some channel)

theorem move_apply (v : Whereabouts) (client : Nat) (target : Option Nat) (other : Nat) :
    v.move client target other = if other = client then target else v other :=
  rfl

theorem move_self (v : Whereabouts) (client : Nat) (target : Option Nat) :
    v.move client target client = target := by
  rw [move_apply, if_pos rfl]

theorem move_of_ne {other : Nat} (v : Whereabouts) (target : Option Nat) (h : other ≠ client) :
    v.move client target other = v other := by
  rw [move_apply, if_neg h]

theorem move_eq (h : v client = target) : v.move client target = v := by
  funext other
  rw [move_apply]
  by_cases hother : other = client
  · rw [if_pos hother, hother, h]
  · rw [if_neg hother]

theorem not_listens_self : ¬v.Listens self self := by
  rintro ⟨hself, -⟩
  exact hself rfl

theorem not_listens_of_none (hself : v self = none) (client : Nat) : ¬v.Listens self client := by
  rintro ⟨-, channel, hchannel, -⟩
  rw [hself] at hchannel
  cases hchannel

theorem listens_iff {channel : Nat} (hself : v self = some channel) :
    v.Listens self client ↔ client ≠ self ∧ v client = some channel := by
  constructor
  · rintro ⟨hne, other, hother, hclient⟩
    rw [hself] at hother
    obtain rfl := Option.some.inj hother
    exact ⟨hne, hclient⟩
  · rintro ⟨hne, hclient⟩
    exact ⟨hne, channel, hself, hclient⟩

/-- The change of one client decides only whether this client listens. -/
theorem listens_move_of_ne {other : Nat} (hclient : client ≠ self) (hother : other ≠ client) :
    (v.move client target).Listens self other ↔ v.Listens self other := by
  unfold Listens
  rw [move_of_ne v target hclient.symm, move_of_ne v target hother]

theorem listens_move_self (hclient : client ≠ self) :
    (v.move client target).Listens self client ↔
      ∃ channel, v self = some channel ∧ target = some channel := by
  unfold Listens
  rw [move_of_ne v target hclient.symm, move_self]
  exact and_iff_right hclient

theorem Lists.mem_members (h : v.Lists self roster) {channel : Nat} (hclient : client ≠ self) :
    client ∈ roster.members channel ↔ v client = some channel := by
  rw [← h client channel hclient]
  simp [Roster.members]

end Whereabouts

/-- Whose channel has changed. -/
def PresenceEvent.client : PresenceEvent → Nat
  | .entered client _ | .left client _ | .moved client _ => client

namespace Presence

variable {p q : Presence} {event : PresenceEvent} {v w : Whereabouts} {client : Nat} {target : Option Nat}
  {roster : Roster}

/-- The bot knows its channel, and the members are those who are there. -/
structure Exact (p : Presence) (v : Whereabouts) : Prop where
  channel : p.ownChannel = v p.self
  members : ∀ client, client ∈ p.members ↔ v.Listens p.self client
  nodup : p.members.Nodup

/-- Clients change their channels one after the other, and the bot takes in each change with a
roster of who is where afterwards. -/
inductive Follows (p : Presence) (v : Whereabouts) : Presence → Whereabouts → Prop
  | refl : Follows p v p v
  | tail {q : Presence} {w : Whereabouts} {client : Nat} {target : Option Nat} {roster : Roster}
      (h : Follows p v q w) (hroster : (w.move client target).Lists p.self roster) :
      Follows p v (q.observe client (w client) target roster) (w.move client target)

theorem exact_start {self : Nat} (autoPause : Bool) (hself : v self = none) :
    (start self autoPause).Exact v where
  channel := hself.symm
  members := by
    intro client
    have hnot := Whereabouts.not_listens_of_none hself client
    simpa [start] using hnot
  nodup := List.nodup_nil

/-! ## What an event does -/

/-- What becomes of the listeners with an event, and what is decided. -/
inductive Applies (p : Presence) (event : PresenceEvent) (roster : Roster) :
    Presence × Option Bool → Prop
  /-- The bot's own arrivals and departures are left to a move and to `reset`. -/
  | ignored (hself : event.client = p.self) : Applies p event roster (p, none)
  | rebuilt (target : Nat) :
      Applies p event roster (p.rebuild target roster, (p.rebuild target roster).decision)
  | joined (client : Nat) (hother : event.client ≠ p.self) (hown : p.ownChannel.isSome = true) :
      Applies p event roster (p.join client, (p.join client).decision)
  | leaves (client : Nat) (hother : event.client ≠ p.self) :
      Applies p event roster (p.leave client, (p.leave client).decision)
  | stays (hother : event.client ≠ p.self) : Applies p event roster (p, p.decision)

theorem applies_apply (p : Presence) (event : PresenceEvent) (roster : Roster) :
    p.Applies event roster (p.apply event roster) := by
  cases event with
  | entered client channel =>
    by_cases hclient : client = p.self
    · simp only [apply, if_pos hclient]
      exact .ignored hclient
    · simp only [apply, if_neg hclient]
      by_cases hown : some channel = p.ownChannel
      · rw [if_pos hown]
        exact .joined client hclient (by rw [← hown, Option.isSome_some])
      · rw [if_neg hown]
        exact .stays hclient
  | left client channel =>
    by_cases hclient : client = p.self
    · simp only [apply, if_pos hclient]
      exact .ignored hclient
    · simp only [apply, if_neg hclient]
      by_cases hown : some channel = p.ownChannel
      · rw [if_pos hown]
        exact .leaves client hclient
      · rw [if_neg hown]
        exact .stays hclient
  | moved client target =>
    by_cases hclient : client = p.self
    · simp only [apply, if_pos hclient]
      exact .rebuilt target
    · simp only [apply, if_neg hclient]
      by_cases hown : some target = p.ownChannel
      · rw [if_pos hown]
        exact .joined client hclient (by rw [← hown, Option.isSome_some])
      · rw [if_neg hown]
        exact .leaves client hclient

theorem apply_frame (p : Presence) (event : PresenceEvent) (roster : Roster) :
    (p.apply event roster).1.self = p.self ∧
      (p.apply event roster).1.autoPause = p.autoPause := by
  have happlies := p.applies_apply event roster
  generalize p.apply event roster = q at happlies ⊢
  cases happlies <;> exact ⟨rfl, rfl⟩

theorem observe_frame (p : Presence) (client : Nat) (old new : Option Nat) (roster : Roster) :
    (p.observe client old new roster).self = p.self ∧
      (p.observe client old new roster).autoPause = p.autoPause := by
  unfold observe
  split
  · exact ⟨rfl, rfl⟩
  · split
    · exact p.apply_frame _ roster
    · exact ⟨rfl, rfl⟩

theorem mem_join {other : Nat} : other ∈ (p.join client).members ↔ other = client ∨ other ∈ p.members :=
  List.mem_insert_iff

theorem mem_leave {other : Nat} :
    other ∈ (p.leave client).members ↔ other ≠ client ∧ other ∈ p.members := by
  simp [leave, and_comm]

/-! ## The change of somebody else -/

/-- The one whose channel changes is counted exactly if the new channel is the bot's. -/
theorem Exact.join (h : p.Exact v) (hclient : client ≠ p.self) (htarget : target = p.ownChannel)
    (hsome : target.isSome) : (p.join client).Exact (v.move client target) where
  channel := by
    show p.ownChannel = v.move client target p.self
    rw [Whereabouts.move_of_ne v target hclient.symm]
    exact h.channel
  members := by
    intro other
    show _ ↔ (v.move client target).Listens p.self other
    rw [mem_join]
    by_cases hother : other = client
    · subst hother
      obtain ⟨channel, hchannel⟩ := Option.isSome_iff_exists.mp hsome
      rw [Whereabouts.listens_move_self hclient]
      constructor
      · intro _
        exact ⟨channel, by rw [← h.channel, ← htarget, hchannel], hchannel⟩
      · intro _
        exact .inl rfl
    · rw [Whereabouts.listens_move_of_ne hclient hother, h.members other]
      exact or_iff_right hother
  nodup := h.nodup.insert

theorem Exact.leave (h : p.Exact v) (hclient : client ≠ p.self)
    (htarget : ¬(target = p.ownChannel ∧ target.isSome)) :
    (p.leave client).Exact (v.move client target) where
  channel := by
    show p.ownChannel = v.move client target p.self
    rw [Whereabouts.move_of_ne v target hclient.symm]
    exact h.channel
  members := by
    intro other
    show _ ↔ (v.move client target).Listens p.self other
    rw [mem_leave]
    by_cases hother : other = client
    · subst hother
      rw [Whereabouts.listens_move_self hclient]
      constructor
      · rintro ⟨hne, -⟩
        exact absurd rfl hne
      · rintro ⟨channel, hself, hchannel⟩
        exact absurd ⟨by rw [h.channel, hself, hchannel], by simp [hchannel]⟩ htarget
    · rw [Whereabouts.listens_move_of_ne hclient hother, h.members other]
      exact and_iff_right hother
  nodup := h.nodup.filter _

/-- Who is not counted need not be taken away. -/
theorem Exact.stay (h : p.Exact v) (hclient : client ≠ p.self)
    (hbefore : ¬v.Listens p.self client) (htarget : ¬(target = p.ownChannel ∧ target.isSome)) :
    p.Exact (v.move client target) := by
  have hleave := h.leave hclient htarget
  have hsame : (p.leave client).members = p.members := by
    apply List.filter_eq_self.mpr
    intro other hother
    have hne : other ≠ client := by
      rintro rfl
      exact hbefore ((h.members other).mp hother)
    simpa using hne
  have heq : p.leave client = p := by
    obtain ⟨self, autoPause, ownChannel, members⟩ := p
    simpa [Presence.leave] using hsame
  rwa [heq] at hleave

theorem Exact.observe_other (h : p.Exact v) (hclient : client ≠ p.self) :
    (p.observe client (v client) target roster).Exact (v.move client target) := by
  have hnot : ¬(client = p.self ∧ target = none) := fun hboth => hclient hboth.1
  unfold observe
  rw [if_neg hnot]
  cases hold : v client with
  | none =>
    have habsent : ¬v.Listens p.self client := by
      rintro ⟨-, channel, -, hchannel⟩
      rw [hold] at hchannel
      cases hchannel
    cases target with
    | none =>
      rw [Whereabouts.move_eq hold]
      exact h
    | some new =>
      simp only [PresenceEvent.ofChange?, hclient, if_false, apply]
      by_cases hown : some new = p.ownChannel
      · rw [if_pos hown]
        exact h.join hclient hown rfl
      · rw [if_neg hown]
        apply h.stay hclient habsent
        rintro ⟨heq, -⟩
        exact hown heq
  | some old =>
    cases target with
    | none =>
      have hnowhere : ¬((none : Option Nat) = p.ownChannel ∧ (none : Option Nat).isSome) := by
        rintro ⟨-, hsome⟩
        cases hsome
      simp only [PresenceEvent.ofChange?, hclient, if_false, apply]
      by_cases hown : some old = p.ownChannel
      · rw [if_pos hown]
        exact h.leave hclient hnowhere
      · rw [if_neg hown]
        apply h.stay hclient _ hnowhere
        rintro ⟨-, channel, hself, hchannel⟩
        rw [← h.channel, ← hchannel, hold] at hself
        exact hown hself.symm
    | some new =>
      simp only [PresenceEvent.ofChange?]
      by_cases hsame : old = new
      · rw [if_pos hsame, Whereabouts.move_eq (by rw [hold, hsame])]
        exact h
      · rw [if_neg hsame]
        simp only [apply, hclient, if_false]
        by_cases hown : some new = p.ownChannel
        · rw [if_pos hown]
          exact h.join hclient hown rfl
        · rw [if_neg hown]
          apply h.leave hclient
          rintro ⟨heq, -⟩
          exact hown heq

/-! ## The bot's own change -/

theorem exact_reset (p : Presence) (v : Whereabouts) : p.reset.Exact (v.move p.self none) where
  channel := by
    show none = v.move p.self none p.self
    rw [Whereabouts.move_self]
  members := by
    intro client
    have hnot := Whereabouts.not_listens_of_none (v.move_self p.self none) client
    simpa [reset] using hnot
  nodup := List.nodup_nil

/-- After its own move the bot knows of its listeners what the roster says. -/
theorem exact_rebuild {new : Nat} (hroster : (v.move p.self (some new)).Lists p.self roster) :
    (p.rebuild new roster).Exact (v.move p.self (some new)) where
  channel := by
    show some new = v.move p.self (some new) p.self
    rw [Whereabouts.move_self]
  members := by
    intro client
    show client ∈ ((roster.members new).filter (· != p.self)).eraseDups ↔
      (v.move p.self (some new)).Listens p.self client
    rw [Whereabouts.listens_iff (v.move_self p.self (some new)), List.mem_eraseDups,
      List.mem_filter, bne_iff_ne]
    constructor
    · rintro ⟨hmem, hne⟩
      exact ⟨hne, (hroster.mem_members hne).mp hmem⟩
    · rintro ⟨hne, hclient⟩
      exact ⟨(hroster.mem_members hne).mpr hclient, hne⟩
  nodup := Roster.nodup_eraseDups _

theorem Exact.observe_self (h : p.Exact v)
    (hroster : (v.move p.self target).Lists p.self roster) :
    (p.observe p.self (v p.self) target roster).Exact (v.move p.self target) := by
  unfold observe
  cases target with
  | none =>
    rw [if_pos ⟨rfl, rfl⟩]
    exact p.exact_reset v
  | some new =>
    rw [if_neg (by simp)]
    cases hold : v p.self with
    | none =>
      simp only [PresenceEvent.ofChange?, if_true, apply]
      exact exact_rebuild hroster
    | some old =>
      simp only [PresenceEvent.ofChange?]
      by_cases hsame : old = new
      · rw [if_pos hsame, Whereabouts.move_eq (by rw [hold, hsame])]
        exact h
      · rw [if_neg hsame]
        simp only [apply, if_true]
        exact exact_rebuild hroster

theorem Exact.observe (h : p.Exact v)
    (hroster : (v.move client target).Lists p.self roster) :
    (p.observe client (v client) target roster).Exact (v.move client target) := by
  by_cases hclient : client = p.self
  · subst hclient
    exact h.observe_self hroster
  · exact h.observe_other hclient

/-! ## Any number of changes -/

theorem Follows.frame (h : p.Follows v q w) : q.self = p.self ∧ q.autoPause = p.autoPause := by
  induction h with
  | refl => exact ⟨rfl, rfl⟩
  | @tail q w client target roster _ _ ih =>
    obtain ⟨hself, hautoPause⟩ := q.observe_frame client (w client) target roster
    exact ⟨hself.trans ih.1, hautoPause.trans ih.2⟩

theorem Follows.exact (h : p.Follows v q w) (hstart : p.Exact v) : q.Exact w := by
  induction h with
  | refl => exact hstart
  | tail hfollows hroster ih =>
    apply ih.observe
    rw [hfollows.frame.1]
    exact hroster

theorem decision_eq_some_true (hautoPause : p.autoPause = true) :
    p.decision = some true ↔ p.members = [] := by
  simp [decision, hautoPause]

/-- The bot starts in no channel.  However the clients and the bot change their channels, it then
knows its own channel and has counted everybody else who is there, nobody else and nobody twice;
and with automatic pause the music rests exactly if nobody listens. -/
theorem counts_who_listens {self : Nat} {autoPause : Bool} (hself : v self = none)
    (h : (start self autoPause).Follows v p w) :
    p.ownChannel = w self ∧
      (∀ client, client ∈ p.members ↔ w.Listens self client) ∧
      p.members.Nodup ∧ self ∉ p.members ∧
      (autoPause = true → (p.decision = some true ↔ ∀ client, ¬w.Listens self client)) := by
  have hexact := h.exact (exact_start autoPause hself)
  obtain ⟨hpself, hpauto⟩ : p.self = self ∧ p.autoPause = autoPause := h.frame
  have hmembers : ∀ client, client ∈ p.members ↔ w.Listens self client := by
    intro client
    rw [hexact.members client, hpself]
  refine ⟨?_, hmembers, hexact.nodup, ?_, ?_⟩
  · rw [hexact.channel, hpself]
  · rw [hmembers]
    exact Whereabouts.not_listens_self
  · intro hauto
    rw [decision_eq_some_true (hpauto.trans hauto), List.eq_nil_iff_forall_not_mem]
    constructor
    · intro hnone client hlistens
      exact hnone client ((hmembers client).mpr hlistens)
    · intro hnone client hmem
      exact hnone client ((hmembers client).mp hmem)

/-- The bot goes to where one client is, another one joins, and the bot follows the first one to
another channel. -/
theorem counts_who_listens_of_moves :
    let v : Whereabouts := fun client => if client = 10 then some 100 else none
    let w := (((v.move 1 (some 100)).move 11 (some 100)).move 10 (some 200)).move 1 (some 200)
    ∃ p, (start 1 true).Follows v p w ∧ p.ownChannel = some 200 ∧ p.members = [10] ∧
      p.ownChannel = w 1 ∧ (∀ client, client ∈ p.members ↔ w.Listens 1 client) ∧
      p.members.Nodup ∧ 1 ∉ p.members ∧
      (true = true → (p.decision = some true ↔ ∀ client, ¬w.Listens 1 client)) := by
  intro v w
  have hself : v 1 = none := by decide
  have hfirst : (v.move 1 (some 100)).Lists 1 [(10, 100)] := by
    intro client channel hclient
    grind [Whereabouts.move_apply]
  have hjoin : ((v.move 1 (some 100)).move 11 (some 100)).Lists 1 [(10, 100), (11, 100)] := by
    intro client channel hclient
    grind [Whereabouts.move_apply]
  have hleave : (((v.move 1 (some 100)).move 11 (some 100)).move 10 (some 200)).Lists 1
      [(10, 200), (11, 100)] := by
    intro client channel hclient
    grind [Whereabouts.move_apply]
  have hlast : w.Lists 1 [(10, 200), (11, 100), (1, 200)] := by
    intro client channel hclient
    grind [Whereabouts.move_apply]
  have hfollows := (((Follows.refl (p := start 1 true) (v := v)).tail hfirst).tail hjoin
    |>.tail hleave).tail hlast
  exact ⟨_, hfollows, rfl, by decide, counts_who_listens hself hfollows⟩

end Presence

end Jukebox
