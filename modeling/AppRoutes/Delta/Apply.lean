/-
Deltas applied to routes.

An update is sent as a whole route: the one that the server holds, prepared for sending, with
the delta applied.  A new route is a delta applied to a route that has a path and nothing
else.
-/
import AppRoutes.Delta.Merge

namespace AppRoutes
namespace Route

/-- A fetched route as it is sent back: both maps are present, and the path, which is the
route's identity, is not part of the payload. -/
def prepare (route : Route) : Route :=
  { route with
    path := ""
    config := some (route.config.getD ∅)
    headers := some (route.headers.getD ∅) }

/-- The route with every attribute that the delta names.  Empty texts, zero memory and zero
concurrency name nothing, since a route counts them as unset. -/
def apply (route : Route) (delta : Delta) : Route :=
  { route with
    config := some (merge (route.config.getD ∅) delta.config)
    headers := some (merge (route.headers.getD ∅) delta.headers)
    image := match delta.image with
      | some image => if image.isEmpty then route.image else image
      | none => route.image
    format := match delta.format with
      | some format => if format.isEmpty then route.format else format
      | none => route.format
    type := delta.type.or route.type
    maxConcurrency := match delta.maxConcurrency with
      | some n => if n = 0 then route.maxConcurrency else n
      | none => route.maxConcurrency
    memory := match delta.memory with
      | some n => if n = 0 then route.memory else n
      | none => route.memory
    timeout := delta.timeout.or route.timeout }

def omitEmpty {α : Type} : Option (SortedMap α) → Option (SortedMap α)
  | some map => if map.isEmpty then none else some map
  | none => none

def build (path : String) (delta : Delta) : Route :=
  let route := apply { path } delta
  { route with config := omitEmpty route.config, headers := omitEmpty route.headers }

end Route
end AppRoutes
