/-
TOML values, arrays and tables between braces included.

Line ends and comments may stand between the items of an array, and in such a table around its
members, their equals signs and their values, but not within a key.  A comma may follow the
last item or member.  Collections may be nested to a fixed depth.
-/
import AppRoutes.Toml.Text
import AppRoutes.Toml.Table

namespace AppRoutes.Toml

/-- How deep arrays and tables between braces may be nested. -/
def maxDepth : Nat := 80

/-- Reads something at the front of a text and gives the rest. -/
abbrev Reader (α : Type) : Type := List Char → Option (α × List Char)

/-- The rest of an array after its bracket or a comma; `bound` limits the number of items. -/
def items? (item : Reader Value) : Nat → List Char → Option (List Char)
  | 0, _ => none
  | bound + 1, text =>
    match skipLines text with
    | ']' :: rest => some rest
    | text => do
      let (_, rest) ← item text
      match skipLines rest with
      | ',' :: rest => items? item bound rest
      | ']' :: rest => some rest
      | _ => none

/-- The rest of a table after its brace or a comma. -/
def members? (value : Reader Value) : Nat → Members → List Char → Option (List Char)
  | 0, _, _ => none
  | bound + 1, members, text =>
    match skipLines text with
    | '}' :: rest => some rest
    | text => do
      let (key, rest) ← key? text
      match skipLines rest with
      | '=' :: rest =>
        let (v, rest) ← value (skipLines rest)
        let members ← members.addValue key v
        match skipLines rest with
        | ',' :: rest => members? value bound members rest
        | '}' :: rest => some rest
        | _ => none
      | _ => none

/-- The value that the text begins with, nested to `depth` at most. -/
def valueAt? : Nat → Reader Value
  | 0, text =>
    match string? text with
    | some (s, rest) => some (.string s, rest)
    | none => scalar text
  | depth + 1, text =>
    match text with
    | '[' :: rest => do return (.array, ← items? (valueAt? depth) (rest.length + 1) rest)
    | '{' :: rest => do return (.table, ← members? (valueAt? depth) (rest.length + 1) [] rest)
    | text =>
      match string? text with
      | some (s, rest) => some (.string s, rest)
      | none => scalar text

def value? : Reader Value := valueAt? maxDepth

end AppRoutes.Toml
