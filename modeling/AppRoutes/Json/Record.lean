/-
Decoding JSON into structures.

A `Record` says how the fields of a structure are read.  An object gives them by name, in
any order and beside members of other names, which may hold any JSON value; an array gives
them by position.  A name may stand only once.
-/
import AppRoutes.SortedMap
import AppRoutes.Json.Node

namespace AppRoutes.Json

inductive Fault where
  /-- The text is not JSON, or a value is not of the kind that its place asks for. -/
  | malformed
  /-- A text of the right kind is refused, with the reason. -/
  | refused (reason : String)
  deriving DecidableEq, Inhabited

abbrev Decoded (α : Type) : Type := Except Fault α

namespace Node

def text : Node → Decoded String
  | .string (some s) => .ok s
  | _ => .error .malformed

def word64 : Node → Decoded UInt64
  | .natural n => if n < UInt64.size then .ok (UInt64.ofNat n) else .error .malformed
  | _ => .error .malformed

def word32 : Node → Decoded UInt32
  | .natural n => if n < UInt32.size then .ok (UInt32.ofNat n) else .error .malformed
  | _ => .error .malformed

/-- A value that may be left open as null. -/
def optional {α : Type} (decode : Node → Decoded α) : Node → Decoded (Option α)
  | .null => .ok none
  | node => some <$> decode node

def list {α : Type} (decode : Node → Decoded α) : Node → Decoded (List α)
  | .array items => items.mapM decode
  | _ => .error .malformed

/-- The members of an object added to a map, where a later one replaces an earlier one. -/
def addMembers {α : Type} (decode : Node → Decoded α) :
    List (Option String × Node) → SortedMap α → Decoded (SortedMap α)
  | [], map => .ok map
  | (none, _) :: _, _ => .error .malformed
  | (some key, node) :: rest, map => do
    let value ← decode node
    addMembers decode rest (map.insert key value)

def map {α : Type} (decode : Node → Decoded α) : Node → Decoded (SortedMap α)
  | .object members => addMembers decode members ∅
  | _ => .error .malformed

end Node

/-- How a structure `σ` with fields `φ` is read. -/
structure Record (φ σ : Type) where
  /-- The fields in the order of their positions. -/
  fields : List φ
  name : φ → String
  /-- Set a field to the value that a node holds. -/
  read : φ → Node → σ → Decoded σ
  start : σ
  /-- Whether an object has to name the field. -/
  isNamed : φ → Bool
  /-- Whether an array has to reach the field. -/
  isReached : φ → Bool

namespace Record

variable {φ σ : Type} [DecidableEq φ]

def field? (record : Record φ σ) (key : String) : Option φ :=
  record.fields.find? (fun field => record.name field = key)

/-- Read members in order; the result holds the fields that were named. -/
def readMembers (record : Record φ σ) :
    List (Option String × Node) → List φ → σ → Decoded (List φ × σ)
  | [], named, value => .ok (named, value)
  | (none, _) :: _, _, _ => .error .malformed
  | (some key, node) :: rest, named, value =>
    match record.field? key with
    | none => if node.isIntact then readMembers record rest named value else .error .malformed
    | some field =>
      if field ∈ named then .error .malformed
      else do
        let value ← record.read field node value
        readMembers record rest (field :: named) value

def readItems (record : Record φ σ) : List φ → List Node → σ → Decoded σ
  | [], [], value => .ok value
  | [], _ :: _, _ => .error .malformed
  | field :: fields, [], value =>
    if record.isReached field then .error .malformed else readItems record fields [] value
  | field :: fields, node :: rest, value => do
    let value ← record.read field node value
    readItems record fields rest value

def decode (record : Record φ σ) : Node → Decoded σ
  | .object members => do
    let (named, value) ← record.readMembers members [] record.start
    if record.fields.all (fun field => !record.isNamed field || field ∈ named) then .ok value
    else .error .malformed
  | .array items => record.readItems record.fields items record.start
  | _ => .error .malformed

/-- Decode a text that holds one value and nothing else. -/
def decodeText (record : Record φ σ) (text : String) : Decoded σ := do
  let document := Document.read text
  let value ← record.decode document.root
  if document.trailing then .error .malformed else .ok value

end Record
end AppRoutes.Json
