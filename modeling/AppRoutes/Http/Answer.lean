/-
Reading answers.

A body is read as a text before its status counts: one that the library gives up is a failure
of the connection.  Then the status alone decides whether an answer is a success and which error
it is.  The message of an error is taken from the envelope that servers wrap it in, else from the
body as it stands, else from the status.
-/
import AppRoutes.Text.Blank
import AppRoutes.Route.Wire
import AppRoutes.Http.Exchange

namespace AppRoutes.Http
open Json

/-- What the messages say in place of the details of a malformed text. -/
def malformedDetail : String := "<detail>"

def invalidResponse : Fault → Error
  | .malformed => .unexpected ("invalid API response: " ++ malformedDetail) none
  | .refused reason => .unexpected ("invalid API response: " ++ reason) none

def decodeWith {φ α : Type} [DecidableEq φ] (record : Record φ α) (text : String) :
    Except Error α :=
  (record.decodeText text).mapError invalidResponse

def errorMessage (status : Nat) (body : String) : String :=
  let plain :=
    let trimmed := Text.trimString body
    if trimmed.isEmpty then "HTTP " ++ toString status else trimmed
  match errorEnvelope.decodeText body with
  | .ok message => if message.isEmpty then plain else message
  | .error _ => plain

namespace Answer

/-- The body of a successful answer. -/
def text (answer : Answer) : Except Error String :=
  match answer.text? with
  | none => .error Exchange.transportFailure
  | some body =>
    if isSuccess answer.status then .ok body
    else .error (.ofStatus answer.status (errorMessage answer.status body))

/-- The value that the body of a successful answer holds. -/
def decode {φ α : Type} [DecidableEq φ] (record : Record φ α) (answer : Answer) :
    Except Error α := do
  decodeWith record (← answer.text)

end Answer
end AppRoutes.Http
