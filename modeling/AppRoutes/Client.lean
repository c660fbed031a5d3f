/-
The operations on routes, over any backend.

Each operation checks its arguments before the backend is reached and lets only those remote
errors through that it documents.
-/
import AppRoutes.Backend
import AppRoutes.Delta.Apply
import AppRoutes.Delta.Resolve

namespace AppRoutes.Client

variable {σ : Type}

def requirePath (path : String) : Action σ Unit :=
  if path.isEmpty then throw missingPath else return

/-- The name of an image, unless it is missing or empty. -/
def requireImage (delta : Delta) : Action σ Unit :=
  if (nonempty? delta.image).isNone then throw missingImage else return

/-- Create a route from a delta that names everything. -/
def create (backend : Backend σ) (app path : String) (delta : Delta) : Action σ Route := do
  requirePath path
  requireImage delta
  let route := Route.build path delta
  backend.announce ("creating route " ++ app ++ path ++ " with " ++ route.image)
  (backend.create app route).surfacing [.badRequest, .conflict]

/-- The route as it is submitted by an update. -/
def merged (route : Route) (delta : Option Delta) : Route :=
  match delta with
  | some delta => route.prepare.apply delta
  | none => route.prepare

/-- Fetch a route, apply a delta to it and submit the whole. -/
def patch (backend : Backend σ) (app path : String) (delta : Option Delta) : Action σ Route := do
  requirePath path
  let route ← (backend.fetch app path).surfacing [.notFound]
  backend.announce ("submitting merged route " ++ app ++ path)
  (backend.replace app path (merged route delta)).surfacing [.badRequest, .notFound, .conflict]

def delete (backend : Backend σ) (app path : String) : Action σ Unit := do
  requirePath path
  (backend.delete app path).surfacing [.notFound]

def get (backend : Backend σ) (app path : String) : Action σ Route := do
  requirePath path
  (backend.fetch app path).surfacing [.notFound]

def list (backend : Backend σ) (app : String) : Action σ (List Route) :=
  (backend.list app).surfacing [.notFound]

def call (backend : Backend σ) (app path : String) (invocation : Invocation) :
    Action σ ByteArray := do
  requirePath path
  (backend.invoke app path invocation).surfacing []

end AppRoutes.Client
