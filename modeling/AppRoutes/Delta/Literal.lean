/-
Entry changes written on the command line, as `NAME=VALUE`.

The name ends at the first equals sign and may not be empty.  The value of a header is a list
of texts with semicolons between them.
-/
import AppRoutes.Text.Split
import AppRoutes.Delta.Basic
import AppRoutes.Error

namespace AppRoutes.Literal
open Text

/-- Which of the two maps a literal speaks of, as messages name it. -/
inductive Target where
  | config
  | header
  deriving DecidableEq

def Target.name : Target → String
  | .config => "config"
  | .header => "header"

/-- The error for a literal that names nothing. -/
def malformed (target : Target) (literal : String) : Error :=
  .validation ("invalid " ++ target.name ++ " '" ++ literal ++ "': expected NAME=VALUE")

/-- The name and the text after the first equals sign. -/
def cutName (target : Target) (literal : String) : Except Error (String × List Char) :=
  match cut? '=' literal.toList with
  | some (name, value) =>
    if name.isEmpty then .error (malformed target literal)
    else .ok (String.ofList name, value)
  | none => .error (malformed target literal)

def parseConfig (literal : String) : Except Error (Entry String) := do
  let (name, value) ← cutName .config literal
  return .set name (String.ofList value)

def parseHeader (literal : String) : Except Error (Entry (List String)) := do
  let (name, value) ← cutName .header literal
  return .set name ((split ';' value).map String.ofList)

end AppRoutes.Literal
