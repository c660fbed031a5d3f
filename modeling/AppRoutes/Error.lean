/-
Errors of route operations.

An error belongs to one category.  Three categories are remote: the server answered, and its
status says why it refused.  An operation lets only those remote categories through that it
documents; `Error.surfaceOnly` turns the others into unexpected errors, which keep the
message and the status.
-/
namespace AppRoutes

inductive Category where
  | validation
  | notFound
  | conflict
  | badRequest
  | unexpected
  deriving DecidableEq, Inhabited

namespace Category

/-- Whether the category stands for an answer of the server. -/
def isRemote : Category → Bool
  | .notFound | .conflict | .badRequest => true
  | .validation | .unexpected => false

def description : Category → String
  | .validation => "Invalid arguments"
  | .notFound => "App or route not found"
  | .conflict => "Route already exists"
  | .badRequest => "Request rejected by the server"
  | .unexpected => "Unexpected error"

def advice : Category → String
  | .validation => "Check the command arguments or the local func file"
  | .notFound => "Verify the app name and route path"
  | .conflict => "Use `routes update` to change an existing route"
  | .badRequest => "Check the route fields for invalid values"
  | .unexpected => "Check the API URL and that the server is reachable"

/-- The status by which the server signals a remote category. -/
def status? : Category → Option Nat
  | .notFound => some 404
  | .conflict => some 409
  | .badRequest => some 400
  | .validation | .unexpected => none

end Category

inductive Error where
  /-- An input is refused before anything is sent. -/
  | validation (message : String)
  | notFound (message : String)
  | conflict (message : String)
  | badRequest (message : String)
  /-- Any other failure, with the status of the answer if there was one. -/
  | unexpected (message : String) (status : Option Nat)
  deriving DecidableEq, Inhabited

namespace Error

def category : Error → Category
  | .validation _ => .validation
  | .notFound _ => .notFound
  | .conflict _ => .conflict
  | .badRequest _ => .badRequest
  | .unexpected _ _ => .unexpected

def message : Error → String
  | .validation m | .notFound m | .conflict m | .badRequest m | .unexpected m _ => m

def status? : Error → Option Nat
  | .unexpected _ status => status
  | _ => none

def display : Error → String
  | .unexpected m _ => "unexpected error: " ++ m
  | e => e.message

/-- The error that an answer other than success stands for. -/
def ofStatus (status : Nat) (message : String) : Error :=
  if status = 400 then .badRequest message
  else if status = 404 then .notFound message
  else if status = 409 then .conflict message
  else .unexpected message (some status)

def surfaceOnly (allowed : List Category) (e : Error) : Error :=
  if e.category.isRemote && e.category ∉ allowed then .unexpected e.message e.category.status?
  else e

end Error
end AppRoutes
