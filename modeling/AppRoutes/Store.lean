/-
The backend that keeps its routes in memory.

A store counts every operation that reaches it, keeps every route that is submitted, and can
be told to fail.  Canned responses stand for the endpoints of routes; a response is found
under the text of the application and the path together.
-/
import AppRoutes.Backend
import AppRoutes.Directory

namespace AppRoutes

/-- A route as it was submitted.  A new route carries its path itself, so `path` is empty. -/
structure Submission where
  operation : Operation
  app : String
  path : String
  route : Route
  deriving DecidableEq

/-- The answer of an operation that is told to fail. -/
structure Failure where
  operation : Operation
  status : Nat
  message : String
  deriving DecidableEq

structure Store where
  directory : Directory := {}
  /-- Operations that fail; for each, the first entry counts. -/
  failures : List Failure := []
  /-- Bodies by application and path, joined. -/
  responses : SortedMap ByteArray := ∅
  calls : List Operation := []
  submissions : List Submission := []

namespace Store

def failure? (store : Store) (operation : Operation) : Option Error :=
  (store.failures.find? (·.operation = operation)).map (fun f => .ofStatus f.status f.message)

def addApp (store : Store) (app : String) : Store :=
  { store with directory := store.directory.addApp app }

def addRoute (store : Store) (app : String) (route : Route) : Store :=
  { store with directory := store.directory.addRoute app route }

/-- Let every call of an operation fail with a status. -/
def fail (store : Store) (operation : Operation) (status : Nat) (message : String) : Store :=
  { store with failures := ⟨operation, status, message⟩ :: store.failures }

def responseKey (app path : String) : String := app ++ path

def addResponse (store : Store) (app path : String) (body : ByteArray) : Store :=
  { store with responses := store.responses.insert (responseKey app path) body }

def route? (store : Store) (app path : String) : Option Route := store.directory.route? app path

/-- Count a call, which fails if it is told to. -/
def enter (operation : Operation) : Action Store Unit := do
  let store ← get
  set { store with calls := store.calls ++ [operation] }
  match store.failure? operation with
  | some e => throw e
  | none => return

def record (operation : Operation) (app path : String) (route : Route) : Action Store Unit :=
  modify fun store =>
    { store with submissions := store.submissions ++ [⟨operation, app, path, route⟩] }

def look {α : Type} (view : Directory → Except Error α) : Action Store α := do
  match view (← get).directory with
  | .ok a => return a
  | .error e => throw e

/-- Take a step in the directory, which stays as the step leaves it even if the step fails. -/
def change {α : Type} (step : Directory → Except Error α × Directory) : Action Store α := do
  let store ← get
  let (outcome, directory) := step store.directory
  set { store with directory }
  match outcome with
  | .ok a => return a
  | .error e => throw e

def backend : Backend Store where
  fetch app path := do
    enter .fetch
    look (·.fetch app path)
  replace app path route := do
    enter .replace
    record .replace app path route
    change (·.replace app path route)
  create app route := do
    enter .create
    record .create app "" route
    change (·.create app route)
  list app := do
    enter .list
    look (·.list app)
  delete app path := do
    enter .delete
    change (·.delete app path)
  invoke app path _ := do
    enter .invoke
    return ((← get).responses.get? (responseKey app path)).getD ByteArray.empty

end Store
end AppRoutes
