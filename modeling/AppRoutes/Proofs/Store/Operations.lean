/-
The operations of a store, as equations.

Each operation counts its call and then fails if it is told to.  One that submits a route
keeps the route next.  What is left is a question to the directory or a step in it.
-/
import AppRoutes.Proofs.Action
import AppRoutes.Store

namespace AppRoutes
namespace Store

open AppRoutes.Action

/-- The store after one more call. -/
def called (operation : Operation) (store : Store) : Store :=
  { store with calls := store.calls ++ [operation] }

/-- The store after one more submission. -/
def submitted (submission : Submission) (store : Store) : Store :=
  { store with submissions := store.submissions ++ [submission] }

@[simp]
theorem directory_called (operation : Operation) (store : Store) :
    (store.called operation).directory = store.directory := rfl

@[simp]
theorem directory_submitted (submission : Submission) (store : Store) :
    (store.submitted submission).directory = store.directory := rfl

theorem runOn_enter (operation : Operation) (store : Store) :
    (enter operation).runOn store =
      match store.failure? operation with
      | some e => (.error e, store.called operation)
      | none => (.ok (), store.called operation) := by
  show (match store.failure? operation with
    | some e => throw e
    | none => pure () : Action Store Unit).runOn (store.called operation) = _
  cases store.failure? operation <;> rfl

theorem runOn_enter_bind {α : Type} (operation : Operation) (next : Action Store α)
    (store : Store) :
    (do enter operation; next : Action Store α).runOn store =
      match store.failure? operation with
      | some e => (.error e, store.called operation)
      | none => next.runOn (store.called operation) := by
  rw [runOn_bind, runOn_enter]
  cases store.failure? operation <;> rfl

theorem runOn_look {α : Type} (view : Directory → Except Error α) (store : Store) :
    (look view).runOn store = (view store.directory, store) := by
  rw [look, runOn_bind, runOn_get]
  dsimp only
  cases view store.directory <;> rfl

theorem runOn_change {α : Type} (step : Directory → Except Error α × Directory) (store : Store) :
    (change step).runOn store =
      ((step store.directory).1, { store with directory := (step store.directory).2 }) := by
  rw [change, runOn_bind, runOn_get]
  dsimp only
  rcases step store.directory with ⟨_ | _, directory⟩ <;> rfl

theorem runOn_fetch (app path : String) (store : Store) :
    (backend.fetch app path).runOn store =
      match store.failure? .fetch with
      | some e => (.error e, store.called .fetch)
      | none => (store.directory.fetch app path, store.called .fetch) := by
  refine (runOn_enter_bind .fetch _ store).trans ?_
  simp only [runOn_look, directory_called]

theorem runOn_replace (app path : String) (route : Route) (store : Store) :
    (backend.replace app path route).runOn store =
      match store.failure? .replace with
      | some e => (.error e, store.called .replace)
      | none =>
        (change (·.replace app path route)).runOn
          ((store.called .replace).submitted ⟨.replace, app, path, route⟩) :=
  runOn_enter_bind .replace _ store

theorem runOn_create (app : String) (route : Route) (store : Store) :
    (backend.create app route).runOn store =
      match store.failure? .create with
      | some e => (.error e, store.called .create)
      | none =>
        (change (·.create app route)).runOn
          ((store.called .create).submitted ⟨.create, app, "", route⟩) :=
  runOn_enter_bind .create _ store

theorem runOn_list (app : String) (store : Store) :
    (backend.list app).runOn store =
      match store.failure? .list with
      | some e => (.error e, store.called .list)
      | none => (store.directory.list app, store.called .list) := by
  refine (runOn_enter_bind .list _ store).trans ?_
  simp only [runOn_look, directory_called]

theorem runOn_invoke (app path : String) (invocation : Invocation) (store : Store) :
    (backend.invoke app path invocation).runOn store =
      match store.failure? .invoke with
      | some e => (.error e, store.called .invoke)
      | none =>
        (.ok ((store.responses.get? (responseKey app path)).getD ByteArray.empty),
          store.called .invoke) :=
  runOn_enter_bind .invoke _ store

theorem runOn_announce (step : String) (store : Store) :
    (backend.announce step).runOn store = (.ok (), store) := rfl

end Store
end AppRoutes
