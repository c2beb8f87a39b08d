import Jukebox.Json.Format
import Jukebox.Error

/-!
# Answers about a login

The catalog answers questions about a login with a code, a message and a cookie; only the
code has to be there.
-/

namespace Jukebox

/-- An answer about a login. -/
structure ApiStatus where
  code : Int
  message : Option String
  cookie : Option String
deriving DecidableEq, Repr, Inhabited

namespace ApiStatus

/-- The code of success. -/
def success : Int := 200
/-- The code of a picture that is too old. -/
def qrExpired : Int := 800
/-- The code of a picture that was confirmed. -/
def qrConfirmed : Int := 803

/-- The message, or else the code in words. -/
def describe (status : ApiStatus) : String :=
  status.message.getD s!"código {status.code}"

/-- The cookie, if it says anything. -/
def usableCookie? (status : ApiStatus) : Option String :=
  status.cookie.filter fun cookie => !cookie.isEmpty

/-- The fields of an answer. -/
def fieldNames : List (List String) := [["code"], ["message", "msg"], ["cookie"]]

/-- Read an answer. -/
def read {V : Type} (format : Format V) (v : V) : Option ApiStatus := do
  let fields ← format.fields fieldNames v
  return {
    code := ← Format.required fields "code" format.signedWord
    message := ← Format.withDefault fields "message" none (format.nullable format.text)
    cookie := ← Format.withDefault fields "cookie" none (format.nullable format.text) }

end ApiStatus

end Jukebox
