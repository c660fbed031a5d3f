/-
Parts of JSON values, chosen by the names and positions that lead to them.
-/
import AppRoutes.Json.Value
import AppRoutes.Text.Numeral
import AppRoutes.Text.Split

namespace AppRoutes.Json
open Text

namespace Value

/-- The member of an object with a key, or the item of an array at a position. -/
def child? (segment : List Char) : Value → Option Value
  | .object members => members.lookup (String.ofList segment)
  | .array items => (Numeral.below? UInt64.size segment).bind (fun i => items[i]?)
  | _ => none

def descend (value : Value) (segments : List (List Char)) : Option Value :=
  segments.foldlM (fun value segment => value.child? segment) value

/-- The part of a value to which names and positions with points between them lead. -/
def select (value : Value) (property : String) : Option Value :=
  value.descend (split '.' property.toList)

end Value
end AppRoutes.Json
