import Jukebox.Error
import Jukebox.Link.Address
import Jukebox.Session.Basic

/-!
# Requests to the web

A request either arrives and is answered, or arrives and is cut off, or does not arrive at
all.  What the web answers may depend on the requests that have arrived before.
-/

namespace Jukebox

/-- What is asked of an address. -/
inductive Verb where
  | get
  /-- Only whether it would answer. -/
  | head
deriving DecidableEq, Repr

/-- A request. -/
structure WebRequest where
  verb : Verb
  address : String
  /-- The parameters, in order. -/
  query : List (String × String)
  /-- The time comes after the parameters, so that no stored answer is given. -/
  stamped : Bool
  headers : Headers
deriving DecidableEq, Repr

/-- What becomes of a request. -/
inductive Delivery where
  /-- It does not arrive. -/
  | unreachable
  /-- It arrives, and no answer comes back. -/
  | dropped
  | answered (status : Nat) (body : String)
deriving DecidableEq, Repr

/-- The web: which names hosts may have, and what becomes of a request, given those that
arrived before it. -/
structure Web where
  names : List Char → Bool := Host.isName
  delivers : List WebRequest → WebRequest → Delivery

/-- A conversation with the web: it goes well or fails, and lengthens the list of requests
that have arrived. -/
abbrev Exchange := ExceptT Error (StateM (List WebRequest))

namespace Web

/-- No request arrives anywhere. -/
def none : Web where
  delivers _ _ := .unreachable

end Web

namespace WebRequest

/-- The name of a header: letters, digits and some signs. -/
def isHeaderName (name : String) : Bool :=
  !name.isEmpty && name.toList.all fun c =>
    c.isAlphanum || "!#$%&'*+-.^_`|~".toList.contains c

/-- The value of a header: no controls but tabs. -/
def isHeaderValue (value : String) : Bool :=
  value.toList.all fun c => (0x20 ≤ c.toNat && c.toNat != 0x7F) || c == '\t'

/-- A request that can be sent at all. -/
def isSendable (web : Web) (r : WebRequest) : Bool :=
  Address.isWeb r.address web.names && r.headers.all fun (name, value) =>
    isHeaderName name && isHeaderValue value

/-- A status of success. -/
def isSuccess (status : Nat) : Bool := 200 ≤ status && status < 300

/-- Send a request: the body of an answer with a status of success. -/
def send (web : Web) (r : WebRequest) : StateM (List WebRequest) (Option String) := do
  let sent ← get
  match if r.isSendable web then web.delivers sent r else .unreachable with
  | .unreachable => return none
  | .dropped =>
    set (sent ++ [r])
    return none
  | .answered status body =>
    set (sent ++ [r])
    return if isSuccess status then some body else none

end WebRequest

end Jukebox
