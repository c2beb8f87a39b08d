import Jukebox.Catalog.Basic

/-!
# Questions that are answered

A request is answered if it can be sent and comes back with success.  A question to the catalog is
answered if its request is and the answer reads as expected; then the request has arrived.  Where a
question is not answered it fails, and its request may have arrived or not.
-/

namespace Jukebox

variable {web : Web} {sent : List WebRequest} {r : WebRequest} {body : String}

/-- The web answers a request with success, after those that have arrived before. -/
def Web.Answers (web : Web) (sent : List WebRequest) (r : WebRequest) (body : String) : Prop :=
  r.isSendable web = true ∧
    ∃ status, web.delivers sent r = .answered status body ∧ WebRequest.isSuccess status = true

namespace WebRequest

/-- Sending a request is putting it to the web, unless it cannot be sent. -/
theorem run_send (web : Web) (r : WebRequest) (sent : List WebRequest) :
    (r.send web).run sent =
      match if r.isSendable web then web.delivers sent r else .unreachable with
      | .unreachable => (none, sent)
      | .dropped => (none, sent ++ [r])
      | .answered status body => (if isSuccess status then some body else none, sent ++ [r]) := by
  unfold send
  cases r.isSendable web <;> cases hweb : web.delivers sent r <;> simp [hweb] <;> rfl

theorem run_send_of_answers (h : web.Answers sent r body) :
    (r.send web).run sent = (some body, sent ++ [r]) := by
  obtain ⟨hsendable, status, hanswered, hsuccess⟩ := h
  rw [run_send, if_pos hsendable, hanswered]
  simp only [hsuccess, if_true]

theorem run_send_of_not_answers (h : ∀ body, ¬ web.Answers sent r body) :
    ∃ arrived, (arrived = [] ∨ arrived = [r]) ∧
      (r.send web).run sent = (none, sent ++ arrived) := by
  rw [run_send]
  by_cases hsendable : r.isSendable web = true
  · rw [if_pos hsendable]
    cases hweb : web.delivers sent r with
    | unreachable => exact ⟨[], .inl rfl, by rw [List.append_nil]⟩
    | dropped => exact ⟨[r], .inr rfl, rfl⟩
    | answered status body =>
      have hstatus : ¬ isSuccess status = true := fun hsuccess =>
        h body ⟨hsendable, status, hweb, hsuccess⟩
      exact ⟨[r], .inr rfl, by simp only [hstatus]; rfl⟩
  · rw [if_neg hsendable]
    exact ⟨[], .inl rfl, by rw [List.append_nil]⟩

end WebRequest

namespace Catalog

variable {α : Type} {c : Catalog} {headers : Headers} {path : String}
  {query : List (String × String)} {read : Json.Value → Option α} {answer : α}

/-- The catalog answers a question: its request is answered, and the answer reads as expected. -/
def Tells (c : Catalog) (web : Web) (headers : Headers) (sent : List WebRequest) (path : String)
    (query : List (String × String)) (read : Json.Value → Option α) (answer : α) : Prop :=
  ∃ body, web.Answers sent (c.request path query headers) body ∧
    (Json.read? body).bind read = some answer

/-- A question is the sending of its request; it fails unless the answer can be read. -/
theorem run_askWith (c : Catalog) (web : Web) (headers : Headers) (path : String)
    (query : List (String × String)) (read : Json.Value → Option α) (sent : List WebRequest) :
    (c.askWith web headers path query read).run.run sent =
      let sending := ((c.request path query headers).send web).run sent
      (match (sending.1.bind Json.read?).bind read with
        | some answer => .ok answer
        | none => .error c.failed, sending.2) := by
  unfold askWith
  rw [ExceptT.run_bind, StateT.run_bind]
  simp only [ExceptT.run_liftM, StateT.run_map]
  generalize ((c.request path query headers).send web).run sent = sending
  obtain ⟨body, arrived⟩ := sending
  cases body with
  | none => rfl
  | some body =>
    change (match (Json.read? body).bind read with
      | some answer => (pure answer : Exchange α)
      | none => throw c.failed).run.run arrived = (match (Json.read? body).bind read with
        | some answer => .ok answer
        | none => .error c.failed, arrived)
    cases (Json.read? body).bind read <;> rfl

theorem run_askWith_of_tells (h : c.Tells web headers sent path query read answer) :
    (c.askWith web headers path query read).run.run sent =
      (.ok answer, sent ++ [c.request path query headers]) := by
  obtain ⟨body, hanswers, hread⟩ := h
  rw [run_askWith, WebRequest.run_send_of_answers hanswers]
  simp only [Option.bind_some, hread]

theorem run_askWith_of_not_tells
    (h : ∀ answer, ¬ c.Tells web headers sent path query read answer) :
    ∃ arrived, (arrived = [] ∨ arrived = [c.request path query headers]) ∧
      (c.askWith web headers path query read).run.run sent =
        (.error c.failed, sent ++ arrived) := by
  rw [run_askWith]
  by_cases hanswers : ∃ body, web.Answers sent (c.request path query headers) body
  · obtain ⟨body, hanswers⟩ := hanswers
    have hread : (Json.read? body).bind read = none := by
      rw [Option.eq_none_iff_forall_ne_some]
      intro answer hread
      exact h answer ⟨body, hanswers, hread⟩
    refine ⟨[c.request path query headers], .inr rfl, ?_⟩
    rw [WebRequest.run_send_of_answers hanswers]
    simp only [Option.bind_some, hread]
  · obtain ⟨arrived, harrived, hsend⟩ :=
      WebRequest.run_send_of_not_answers (not_exists.mp hanswers)
    refine ⟨arrived, harrived, ?_⟩
    rw [hsend]
    rfl

end Catalog

namespace Exchange

variable {α β : Type} {x : Exchange α} {a : α} {e : Error} {arrived : List WebRequest}

theorem run_bind_of_ok (h : x.run.run sent = (.ok a, arrived)) (f : α → Exchange β) :
    (x >>= f).run.run sent = (f a).run.run arrived := by
  rw [ExceptT.run_bind, StateT.run_bind, h]
  rfl

theorem run_bind_of_error (h : x.run.run sent = (.error e, arrived)) (f : α → Exchange β) :
    (x >>= f).run.run sent = (.error e, arrived) := by
  rw [ExceptT.run_bind, StateT.run_bind, h]
  rfl

end Exchange

end Jukebox
