/-
Backends: where routes are kept.

An operation of a backend either answers or fails, and leaves a new state of the backend in
both cases, so that what a failed operation has already done stays visible.
-/
import AppRoutes.Error
import AppRoutes.Invocation
import AppRoutes.Route.Basic

namespace AppRoutes

abbrev Action (σ : Type) : Type → Type := ExceptT Error (StateM σ)

def Action.runOn {σ α : Type} (action : Action σ α) (state : σ) : Except Error α × σ :=
  StateT.run (ExceptT.run action) state

/-- Let only the listed remote categories of an operation's errors through. -/
def Action.surfacing {σ α : Type} (allowed : List Category) (action : Action σ α) : Action σ α :=
  ExceptT.adapt (Error.surfaceOnly allowed) action

inductive Operation where
  | fetch
  | replace
  | create
  | list
  | delete
  | invoke
  deriving DecidableEq, Inhabited

structure Backend (σ : Type) where
  fetch (app path : String) : Action σ Route
  /-- Put a route in the place of an existing one. -/
  replace (app path : String) (route : Route) : Action σ Route
  /-- Add a route under the path that it names. -/
  create (app : String) (route : Route) : Action σ Route
  list (app : String) : Action σ (List Route)
  delete (app path : String) : Action σ Unit
  /-- Call the endpoint of a route and answer with the body. -/
  invoke (app path : String) (invocation : Invocation) : Action σ ByteArray
  /-- Take note of a step that is about to be taken. -/
  announce (step : String) : Action σ Unit := pure ()

end AppRoutes
