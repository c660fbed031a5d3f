/-
TOML files.

A file is a list of statements, one a line: headers, which open a table, and keys with values,
which belong to the table that was opened last.
-/
import AppRoutes.Toml.Collection

namespace AppRoutes.Toml

inductive Statement where
  | table (path : List String)
  | item (path : List String)
  | member (key : List String) (value : Value)
  deriving DecidableEq

/-- The statement that the text begins with, and the rest of the line. -/
def statement? : Reader Statement
  | '[' :: '[' :: rest => do
    let (path, rest) ← key? rest
    match rest with
    | ']' :: ']' :: rest => return (.item path, rest)
    | _ => none
  | '[' :: rest => do
    let (path, rest) ← key? rest
    match rest with
    | ']' :: rest => return (.table path, rest)
    | _ => none
  | text => do
    let (key, rest) ← key? text
    match rest with
    | '=' :: rest =>
      let (value, rest) ← value? (skipBlanks rest)
      return (.member key value, rest)
    | _ => none

/-- The statements of a text; `bound` limits the number of lines. -/
def statementsUpTo? : Nat → List Char → Option (List Statement)
  | 0, _ => none
  | bound + 1, text =>
    match endOfLine? text with
    | some [] => some []
    | some rest => statementsUpTo? bound rest
    | none => do
      let (statement, rest) ← statement? (skipBlanks text)
      match ← endOfLine? rest with
      | [] => return [statement]
      | rest => return statement :: (← statementsUpTo? bound rest)

def statements? (text : List Char) : Option (List Statement) :=
  statementsUpTo? (text.length + 1) text

structure Progress where
  members : Members
  /-- The header of the table that was opened last. -/
  header : List String

def Progress.add (progress : Progress) : Statement → Option Progress
  | .table path => do
    return ⟨← Members.openHeader Members.openTable path progress.members, path⟩
  | .item path => do
    return ⟨← Members.openHeader Members.openItem path progress.members, path⟩
  | .member key value => do
    let edit := Members.addValue key value
    return { progress with members := ← progress.members.change edit progress.header }

def Members.ofStatements? (statements : List Statement) : Option Members := do
  return (← statements.foldlM Progress.add ⟨[], []⟩).members

/-- A mark of the byte order at the front of a text does not count. -/
def dropByteOrderMark : List Char → List Char
  | '\uFEFF' :: rest => rest
  | text => text

/-- What stands at the top of a file, if it is TOML. -/
def Members.read? (text : String) : Option Members :=
  (statements? (dropByteOrderMark text.toList)).bind Members.ofStatements?

end AppRoutes.Toml
