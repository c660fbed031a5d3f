/-
The operations of a client, step by step.

A client checks its arguments and then does one or two calls of the backend.  The equations
here say which, over any backend.  `Client.Call` is a call as data, so that a statement about
every operation is one statement.
-/
import AppRoutes.Client
import AppRoutes.Proofs.Action

namespace AppRoutes

/-- What a call answers with. -/
inductive Payload where
  | route (route : Route)
  | routes (routes : List Route)
  | nothing
  | body (bytes : ByteArray)

inductive Backend.Call where
  | fetch (app path : String)
  | replace (app path : String) (route : Route)
  | create (app : String) (route : Route)
  | list (app : String)
  | delete (app path : String)
  | invoke (app path : String) (invocation : Invocation)

def Backend.Call.run {σ : Type} (backend : Backend σ) : Backend.Call → Action σ Payload
  | .fetch app path => .route <$> backend.fetch app path
  | .replace app path route => .route <$> backend.replace app path route
  | .create app route => .route <$> backend.create app route
  | .list app => .routes <$> backend.list app
  | .delete app path => (fun _ => .nothing) <$> backend.delete app path
  | .invoke app path invocation => .body <$> backend.invoke app path invocation

namespace Client

variable {σ : Type}

inductive Call where
  | create (app path : String) (delta : Delta)
  | patch (app path : String) (delta : Option Delta)
  | delete (app path : String)
  | get (app path : String)
  | list (app : String)
  | call (app path : String) (invocation : Invocation)

def Call.run (backend : Backend σ) : Call → Action σ Payload
  | .create app path delta => .route <$> Client.create backend app path delta
  | .patch app path delta => .route <$> Client.patch backend app path delta
  | .delete app path => (fun _ => .nothing) <$> Client.delete backend app path
  | .get app path => .route <$> Client.get backend app path
  | .list app => .routes <$> Client.list backend app
  | .call app path invocation => .body <$> Client.call backend app path invocation

theorem not_isEmpty_of_ne {text : String} (h : text ≠ "") : ¬ text.isEmpty = true :=
  fun hempty => h (String.isEmpty_iff.mp hempty)

theorem runOn_requirePath (path : String) (s : σ) :
    (requirePath path : Action σ Unit).runOn s =
      (if path.isEmpty then .error missingPath else .ok (), s) := by
  unfold requirePath
  split <;> rfl

theorem runOn_requireImage (delta : Delta) (s : σ) :
    (requireImage delta : Action σ Unit).runOn s =
      (if (nonempty? delta.image).isNone then .error missingImage else .ok (), s) := by
  unfold requireImage
  split <;> rfl

/-- An operation that checks its path fails without it, and runs on otherwise. -/
theorem runOn_requirePath_bind {α : Type} (path : String) (next : Action σ α) (s : σ) :
    (do requirePath path; next : Action σ α).runOn s =
      if path.isEmpty then (.error missingPath, s) else next.runOn s := by
  rw [Action.runOn_bind, runOn_requirePath]
  by_cases h : path.isEmpty = true
  · rw [if_pos h, if_pos h]
  · rw [if_neg h, if_neg h]

theorem runOn_requireImage_bind {α : Type} (delta : Delta) (next : Action σ α) (s : σ) :
    (do requireImage delta; next : Action σ α).runOn s =
      if (nonempty? delta.image).isNone then (.error missingImage, s) else next.runOn s := by
  rw [Action.runOn_bind, runOn_requireImage]
  by_cases h : (nonempty? delta.image).isNone = true
  · rw [if_pos h, if_pos h]
  · rw [if_neg h, if_neg h]

variable (backend : Backend σ) (app path : String)

theorem runOn_get (s : σ) :
    (get backend app path).runOn s =
      if path.isEmpty then (.error missingPath, s)
      else ((backend.fetch app path).surfacing [.notFound]).runOn s :=
  runOn_requirePath_bind path _ s

theorem runOn_delete (s : σ) :
    (delete backend app path).runOn s =
      if path.isEmpty then (.error missingPath, s)
      else ((backend.delete app path).surfacing [.notFound]).runOn s :=
  runOn_requirePath_bind path _ s

theorem runOn_call (invocation : Invocation) (s : σ) :
    (call backend app path invocation).runOn s =
      if path.isEmpty then (.error missingPath, s)
      else ((backend.invoke app path invocation).surfacing []).runOn s :=
  runOn_requirePath_bind path _ s

/-- What a client does to create a route once its arguments are checked. -/
def submitNew (delta : Delta) : Action σ Route := do
  let route := Route.build path delta
  backend.announce ("creating route " ++ app ++ path ++ " with " ++ route.image)
  (backend.create app route).surfacing [.badRequest, .conflict]

theorem runOn_create (delta : Delta) (s : σ) :
    (create backend app path delta).runOn s =
      if path.isEmpty then (.error missingPath, s)
      else if (nonempty? delta.image).isNone then (.error missingImage, s)
      else (submitNew backend app path delta).runOn s := by
  show (do requirePath path; requireImage delta; submitNew backend app path delta :
    Action σ Route).runOn s = _
  rw [runOn_requirePath_bind, runOn_requireImage_bind]

/-- What a client does with a fetched route to update it. -/
def submitMerged (delta : Option Delta) (route : Route) : Action σ Route := do
  backend.announce ("submitting merged route " ++ app ++ path)
  (backend.replace app path (merged route delta)).surfacing [.badRequest, .notFound, .conflict]

theorem runOn_patch (delta : Option Delta) (s : σ) :
    (patch backend app path delta).runOn s =
      if path.isEmpty then (.error missingPath, s)
      else
        match (backend.fetch app path).runOn s with
        | (.ok route, t) => (submitMerged backend app path delta route).runOn t
        | (.error e, t) => (.error (e.surfaceOnly [.notFound]), t) := by
  show (do
    requirePath path
    let route ← (backend.fetch app path).surfacing [.notFound]
    submitMerged backend app path delta route : Action σ Route).runOn s = _
  rw [runOn_requirePath_bind, Action.runOn_bind, Action.runOn_surfacing]
  split
  · rfl
  · rcases (backend.fetch app path).runOn s with ⟨e | route, t⟩ <;> rfl

/-- The first step of an update is what a client does to get a route. -/
theorem runOn_patch_get (delta : Option Delta) (s : σ) :
    (patch backend app path delta).runOn s =
      match (get backend app path).runOn s with
      | (.ok route, t) => (submitMerged backend app path delta route).runOn t
      | (.error e, t) => (.error e, t) := by
  rw [runOn_patch, runOn_get]
  by_cases hpath : path.isEmpty = true
  · rw [if_pos hpath, if_pos hpath]
  · rw [if_neg hpath, if_neg hpath, Action.runOn_surfacing]
    rcases (backend.fetch app path).runOn s with ⟨e | route, t⟩ <;> rfl

end Client

/-! ## What calls leave alone -/

/-- No operation of the backend touches a part of its state. -/
structure Backend.Leaves {σ π : Type} (part : σ → π) (backend : Backend σ) : Prop where
  fetch : ∀ app path, Action.Leaves part (backend.fetch app path)
  replace : ∀ app path route, Action.Leaves part (backend.replace app path route)
  create : ∀ app route, Action.Leaves part (backend.create app route)
  list : ∀ app, Action.Leaves part (backend.list app)
  delete : ∀ app path, Action.Leaves part (backend.delete app path)
  invoke : ∀ app path invocation, Action.Leaves part (backend.invoke app path invocation)
  announce : ∀ step, Action.Leaves part (backend.announce step)

section

variable {σ π : Type} {part : σ → π} {backend : Backend σ}

theorem Backend.Leaves.call (h : backend.Leaves part) (call : Backend.Call) :
    Action.Leaves part (call.run backend) := by
  cases call with
  | fetch app path => exact (h.fetch app path).map _
  | replace app path route => exact (h.replace app path route).map _
  | create app route => exact (h.create app route).map _
  | list app => exact (h.list app).map _
  | delete app path => exact (h.delete app path).map _
  | invoke app path invocation => exact (h.invoke app path invocation).map _

namespace Client

theorem leaves_requirePath (path : String) : Action.Leaves part (requirePath path) := fun s =>
  congrArg (fun result => part result.2) (runOn_requirePath path s)

theorem leaves_requireImage (delta : Delta) : Action.Leaves part (requireImage delta) := fun s =>
  congrArg (fun result => part result.2) (runOn_requireImage delta s)

/-- What no operation of a backend touches, no operation of a client does. -/
theorem leaves_call (h : backend.Leaves part) (call : Call) :
    Action.Leaves part (call.run backend) := by
  cases call with
  | create app path delta =>
    refine Action.Leaves.map ((leaves_requirePath path).bind fun _ => ?_) _
    refine (leaves_requireImage delta).bind fun _ => ?_
    exact (h.announce _).bind fun _ => (h.create app (Route.build path delta)).surfacing _
  | patch app path delta =>
    refine Action.Leaves.map ((leaves_requirePath path).bind fun _ => ?_) _
    refine ((h.fetch app path).surfacing _).bind fun route => ?_
    exact (h.announce _).bind fun _ => (h.replace app path (merged route delta)).surfacing _
  | delete app path =>
    exact ((leaves_requirePath path).bind fun _ => (h.delete app path).surfacing _).map _
  | get app path =>
    exact ((leaves_requirePath path).bind fun _ => (h.fetch app path).surfacing _).map _
  | list app => exact ((h.list app).surfacing _).map _
  | call app path invocation =>
    exact ((leaves_requirePath path).bind fun _ =>
      (h.invoke app path invocation).surfacing _).map _

end Client

end
end AppRoutes
