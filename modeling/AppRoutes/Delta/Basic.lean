/-
Changes to a route.

A delta names the attributes that change.  An attribute that is left out keeps its value, and
the two maps change entry by entry.
-/
import AppRoutes.Route.Basic

namespace AppRoutes

/-- What happens to a key of a map. -/
inductive Change (α : Type) where
  | set (value : α)
  | delete
  deriving DecidableEq, Inhabited

structure Entry (α : Type) where
  key : String
  change : Change α
  deriving DecidableEq, Inhabited

namespace Entry

variable {α : Type}

def set (key : String) (value : α) : Entry α := ⟨key, .set value⟩

def delete (key : String) : Entry α := ⟨key, .delete⟩

/-- A key with a hyphen before it is deleted, any other is set. -/
def ofHyphenated (key : String) (value : α) : Entry α :=
  match key.toList with
  | '-' :: rest => delete (String.ofList rest)
  | _ => set key value

end Entry

structure Delta where
  image : Option String := none
  memory : Option UInt64 := none
  type : Option RouteType := none
  format : Option String := none
  maxConcurrency : Option UInt32 := none
  timeout : Option UInt64 := none
  config : List (Entry String) := []
  headers : List (Entry (List String)) := []
  deriving DecidableEq, Inhabited

def Delta.isEmpty (delta : Delta) : Bool := delta = {}

end AppRoutes
