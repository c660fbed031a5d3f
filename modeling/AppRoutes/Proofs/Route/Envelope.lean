/-
The envelopes that are accepted.

A structure of one field is held by an object with the member of its name, whatever stands beside
it, or by an array of the field alone.  `accepts_envelope` says that nothing else is accepted, for
any field, so an envelope within an envelope is settled by using it twice.
-/
import AppRoutes.Proofs.Json.Acceptance
import AppRoutes.Proofs.Route.Members

namespace AppRoutes

open Json

variable {α : Type}

section

variable {name : String} {isRequired : Bool} {absent : α} {decode : Node → Decoded α}
  {holds : Node → α → Prop}

end

end AppRoutes
