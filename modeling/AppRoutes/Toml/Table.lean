/-
The tables of a TOML file, and what a file may add to them.

A table can be named in three ways: by a header of its own, by a longer header or by a dotted
key.  A header may complete a table that only longer headers have named.  A dotted key may add
to a table that has no header of its own, and it may lead through the last table of an array,
which has a header, to such a table.  A table between braces is closed.
-/
import AppRoutes.Toml.Scalar

namespace AppRoutes.Toml

inductive Origin where
  | header
  | implied
  | dotted
  deriving DecidableEq

inductive Node where
  /-- A value, which nothing can be added to. -/
  | value (value : Value)
  | table (origin : Origin) (members : List (String × Node))
  /-- The tables of an array whose headers have double brackets, the last one first. -/
  | tables (items : List (List (String × Node)))
  deriving Inhabited

abbrev Members : Type := List (String × Node)

namespace Members

def get? (key : String) (members : Members) : Option Node := members.lookup key

/-- The members with a node in the place of the one under a key. -/
def replace (key : String) (node : Node) (members : Members) : Members :=
  members.map fun (k, old) => if k = key then (k, node) else (k, old)

def add (key : String) (node : Node) (members : Members) : Members := members ++ [(key, node)]

/-- Add a value under a key, whose parts before the last name tables. -/
def addValue : List String → Value → Members → Option Members
  | [], _, _ => none
  | [key], value, members =>
    match members.get? key with
    | none => some (members.add key (.value value))
    | some _ => none
  | key :: rest, value, members =>
    match members.get? key with
    | none => do return members.add key (.table .dotted (← addValue rest value []))
    | some (.table origin inner) =>
      if origin = .header then none
      else do return members.replace key (.table origin (← addValue rest value inner))
    | some (.tables (last :: before)) =>
      if rest.length = 1 then none
      else do return members.replace key (.tables ((← addValue rest value last) :: before))
    | some _ => none

/-- Change the table that a header has named. -/
def change (edit : Members → Option Members) : List String → Members → Option Members
  | [], members => edit members
  | key :: rest, members =>
    match members.get? key with
    | some (.table origin inner) => do
      return members.replace key (.table origin (← change edit rest inner))
    | some (.tables (last :: before)) => do
      return members.replace key (.tables ((← change edit rest last) :: before))
    | _ => none

/-- The table under the last part of a header, if a header may name it. -/
def openTable (key : String) (members : Members) : Option Members :=
  match members.get? key with
  | none => some (members.add key (.table .header []))
  | some (.table .implied inner) => some (members.replace key (.table .header inner))
  | some _ => none

def openItem (key : String) (members : Members) : Option Members :=
  match members.get? key with
  | none => some (members.add key (.tables [[]]))
  | some (.tables items) => some (members.replace key (.tables ([] :: items)))
  | some _ => none

/-- Follow the parts of a header before its last one, then do as `openLast` says. -/
def openHeader (openLast : String → Members → Option Members) :
    List String → Members → Option Members
  | [], _ => none
  | [key], members => openLast key members
  | key :: rest, members =>
    match members.get? key with
    | none => do return members.add key (.table .implied (← openHeader openLast rest []))
    | some (.table origin inner) => do
      return members.replace key (.table origin (← openHeader openLast rest inner))
    | some (.tables (last :: before)) => do
      return members.replace key (.tables ((← openHeader openLast rest last) :: before))
    | some _ => none

end Members
end AppRoutes.Toml
