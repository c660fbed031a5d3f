/-
Calls of a route's public endpoint.
-/
import AppRoutes.Text.Uppercase
import AppRoutes.Descriptor

namespace AppRoutes

structure Invocation where
  method : String
  body : Option ByteArray := none
  /-- Further headers, in the order in which they are sent. -/
  headers : List (String × String) := []

namespace Invocation

/-- The method of a call that names none. -/
def initialMethod (body : Option ByteArray) : String :=
  if body.isSome then "POST" else "GET"

def ofMethod (method : Option String) (body : Option ByteArray) : Invocation :=
  match nonempty? method with
  | some method => { method := Text.uppercase method, body }
  | none => { method := initialMethod body, body }

def addHeader (invocation : Invocation) (name value : String) : Invocation :=
  { invocation with headers := invocation.headers ++ [(name, value)] }

end Invocation
end AppRoutes
