/-
Where the attributes of a command come from.

A flag goes before the local descriptor, and the descriptor before a default; only a new
route has defaults.  An empty text is passed over like a missing one.
-/
import AppRoutes.Delta.Basic
import AppRoutes.Descriptor
import AppRoutes.Error

namespace AppRoutes

inductive Mode where
  | create
  | update
  deriving DecidableEq

def pickText (flag descriptor : Option String) : Option String :=
  (nonempty? flag).or (nonempty? descriptor)

def initialMemory : UInt64 := 128

def initialMaxConcurrency : UInt32 := 1

/-- In whole seconds. -/
def initialTimeout : UInt64 := 30

namespace Delta

/-- The flags, completed from the descriptor. -/
def complete (flags : Delta) (descriptor : Descriptor) : Delta :=
  { flags with
    image := pickText flags.image descriptor.fullName
    format := pickText flags.format descriptor.format
    maxConcurrency := flags.maxConcurrency.or descriptor.maxConcurrency
    timeout := flags.timeout.or descriptor.timeout }

/-- The defaults of a new route for what is still open. -/
def withDefaults (delta : Delta) : Delta :=
  { delta with
    memory := delta.memory.or (some initialMemory)
    type := delta.type.or (some .initial)
    maxConcurrency := delta.maxConcurrency.or (some initialMaxConcurrency)
    timeout := delta.timeout.or (some initialTimeout) }

end Delta

/-- What a command does: the path of the route and the changes to it. -/
structure Resolved where
  path : String
  delta : Delta
  deriving DecidableEq

def missingPath : Error := .validation "route path is missing"

def missingImage : Error := .validation "image name is missing"

def resolve (mode : Mode) (path : Option String) (flags : Delta) (descriptor : Option Descriptor) :
    Except Error Resolved :=
  let descriptor := descriptor.getD {}
  match pickText path descriptor.path with
  | none => .error missingPath
  | some path =>
    let delta := flags.complete descriptor
    match mode with
    | .update => .ok ⟨path, delta⟩
    | .create =>
      if delta.image.isNone then .error missingImage
      else .ok ⟨path, delta.withDefaults⟩

end AppRoutes
