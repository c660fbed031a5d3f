/-
Local descriptors: what the directory of a function says about its route.
-/
namespace AppRoutes

structure Descriptor where
  /-- The image without its tag. -/
  name : Option String := none
  version : Option String := none
  format : Option String := none
  maxConcurrency : Option UInt32 := none
  /-- The timeout in whole seconds. -/
  timeout : Option UInt64 := none
  path : Option String := none
  deriving DecidableEq, Inhabited

/-- An option that counts an empty text as nothing. -/
def nonempty? : Option String → Option String
  | some text => if text.isEmpty then none else some text
  | none => none

/-- The image with its tag, if it has one. -/
def Descriptor.fullName (descriptor : Descriptor) : Option String := do
  let name ← nonempty? descriptor.name
  match nonempty? descriptor.version with
  | some version => return name ++ ":" ++ version
  | none => return name

end AppRoutes
