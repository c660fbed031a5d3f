/-
Routes.

A route binds a path of an application to a container image.  An empty text and a zero mean
that the attribute is not set; where the empty value has a meaning of its own, as for the
timeout and the two maps, the attribute is an option.
-/
import AppRoutes.SortedMap

namespace AppRoutes

/-- How a route is invoked: the caller waits, or the call is queued. -/
inductive RouteType where
  | sync
  | async
  deriving DecidableEq, Inhabited

namespace RouteType

def name : RouteType → String
  | .sync => "sync"
  | .async => "async"

def ofName? (name : String) : Option RouteType :=
  if name = "sync" then some .sync
  else if name = "async" then some .async
  else none

theorem ofName?_name (type : RouteType) : ofName? type.name = some type := by
  cases type <;> decide

/-- Why `name` is refused as a route type. -/
def unknownMessage (name : String) : String :=
  "unknown route type '" ++ name ++ "' (expected sync or async)"

def parse (name : String) : Except String RouteType :=
  match ofName? name with
  | some type => .ok type
  | none => .error (unknownMessage name)

def initial : RouteType := .sync

end RouteType

abbrev ConfigMap : Type := SortedMap String

/-- Response headers, each with its values in order. -/
abbrev HeaderMap : Type := SortedMap (List String)

structure Route where
  appName : String := ""
  path : String := ""
  image : String := ""
  /-- The memory limit in MiB. -/
  memory : UInt64 := 0
  type : Option RouteType := none
  format : String := ""
  maxConcurrency : UInt32 := 0
  /-- The timeout in whole seconds. -/
  timeout : Option UInt64 := none
  config : Option ConfigMap := none
  headers : Option HeaderMap := none
  deriving DecidableEq, Inhabited

end AppRoutes
