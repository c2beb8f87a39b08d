import Jukebox.Session.Cookie

/-!
# The session with the catalog

The headers that go with every request, among them the cookie, and how the user logged in.
A login puts its own cookie in place of the old one, a refresh lays a fragment over it.
-/

namespace Jukebox

/-- The headers that go with every request. -/
abbrev Headers := Pairs

/-- The name of the cookie header. -/
def cookieHeader : String := "Cookie"

/-- How the user logged in. -/
inductive LoginMode where
  /-- By a cookie from the settings or by a code sent to a phone. -/
  | password
  /-- By a picture code; such a session is never refreshed. -/
  | qr
deriving DecidableEq, Repr, Inhabited

namespace LoginMode

/-- By a picture code. -/
def isQr : LoginMode → Bool
  | .qr => true
  | .password => false

/-- The login mode that the settings remember. -/
def ofQr (qr : Bool) : LoginMode := if qr then .qr else .password

end LoginMode

/-- The session with the catalog. -/
structure Session where
  headers : Headers
  loginMode : LoginMode
  /-- Minutes between two refreshes; none where it is not positive. -/
  refreshMinutes : Int
deriving DecidableEq, Repr, Inhabited

namespace Session

/-- The longest time between two refreshes: a year, in minutes. -/
def maxRefreshMinutes : Nat := 60 * 24 * 365

/-- The cookie of the session. -/
def cookie (s : Session) : String := s.headers.value cookieHeader

/-- The session with another cookie. -/
def withCookie (s : Session) (cookie : String) : Session :=
  { s with headers := s.headers.set cookieHeader cookie }

/-- Seconds between two refreshes; `none` where there are none. -/
def refreshSeconds? (s : Session) : Option Nat :=
  if 0 < s.refreshMinutes then some (min s.refreshMinutes.toNat maxRefreshMinutes * 60) else none

/-- Lay a cookie fragment over the cookie. -/
def refresh (s : Session) (fragment : String) : Session :=
  s.withCookie (Cookie.merge s.cookie fragment)

/-- Take the cookie of a login. -/
def logIn (s : Session) (raw : String) (mode : LoginMode) : Session :=
  { s.withCookie (Cookie.normalize raw) with loginMode := mode }

@[simp] theorem cookie_withCookie (s : Session) (cookie : String) :
    (s.withCookie cookie).cookie = cookie := by
  simp [Session.cookie, withCookie, Pairs.value, Pairs.lookup_set]

end Session

end Jukebox
