/-
Maps under set and unset flags.

Literals that set keys come before the keys that are unset, so the last entry for a key is its
deletion if it is unset at all, and the last literal that names it if not.  Which text a literal
gives is said here by its first equals sign, without the reader.
-/
import AppRoutes.Proofs.Delta.Literal
import AppRoutes.Proofs.Delta.Merge

namespace AppRoutes
open Text

namespace Literal

/-- The text before the first equals sign. -/
def nameOf (literal : String) : String :=
  String.ofList (literal.toList.takeWhile (· ≠ '='))

/-- The text after the first equals sign. -/
def textOf (literal : String) : List Char := (literal.toList.dropWhile (· ≠ '=')).tail

/-- The texts between semicolons. -/
def listOf (text : List Char) : List String := (split ';' text).map String.ofList

/-- The first equals sign of a literal is the one behind its name. -/
theorem nameOf_textOf_append {name : String} (hname : IsName name) (text : List Char) :
    nameOf (name ++ "=" ++ String.ofList text) = name ∧
      textOf (name ++ "=" ++ String.ofList text) = text := by
  have htext : (name ++ "=" ++ String.ofList text).toList = name.toList ++ '=' :: text := by simp
  have hall : ∀ c ∈ name.toList, decide (c ≠ '=') = true := fun c hc =>
    decide_eq_true fun heq => hname.2 (heq ▸ hc)
  rw [nameOf, textOf, htext, List.takeWhile_append_of_pos hall, List.dropWhile_append_of_pos hall]
  simp

theorem entry_of_cutName {α : Type} {target : Target} {literal : String} {value : List Char → α}
    {entry : Entry α}
    (h : (do
      let (name, text) ← cutName target literal
      return Entry.set name (value text)) = Except.ok entry) :
    entry = .set (nameOf literal) (value (textOf literal)) := by
  obtain ⟨name, text, hname, rfl, rfl⟩ := bind_cutName_eq_ok_iff.mp h
  obtain ⟨hnameOf, htextOf⟩ := nameOf_textOf_append hname text
  rw [hnameOf, htextOf]

theorem parseConfig_eq_ok {literal : String} {entry : Entry String}
    (h : parseConfig literal = .ok entry) :
    entry = .set (nameOf literal) (String.ofList (textOf literal)) :=
  entry_of_cutName h

theorem parseHeader_eq_ok {literal : String} {entry : Entry (List String)}
    (h : parseHeader literal = .ok entry) :
    entry = .set (nameOf literal) (listOf (textOf literal)) :=
  entry_of_cutName h

/-- Literals that are all read give an entry each. -/
theorem mapM_eq_ok {α : Type} {read : String → Except Error (Entry α)} {value : List Char → α}
    (h : ∀ literal entry, read literal = .ok entry →
      entry = .set (nameOf literal) (value (textOf literal)))
    {literals : List String} {entries : List (Entry α)} (hread : literals.mapM read = .ok entries) :
    entries = literals.map fun literal => .set (nameOf literal) (value (textOf literal)) := by
  rw [eq_comm, ← List.forall₂_eq_eq_eq, List.forall₂_map_left_iff]
  exact (mapM_eq_ok_iff.mp hread).imp fun literal entry hliteral =>
    (h literal entry hliteral).symm

end Literal

open Literal

variable {α : Type}

/-- What literals and unset keys make of a map: an unset key is gone, even if a literal sets it;
any other has the text of the last literal that names it, or what it had before. -/
def Overlays (literals unset : List String) (value : List Char → α)
    (before after : Option (SortedMap α)) : Prop :=
  ∃ map, after = some map ∧ ∀ key, map.get? key =
    if key ∈ unset then none
    else
      match (literals.filter (fun literal => nameOf literal = key)).getLast? with
      | some literal => some (value (textOf literal))
      | none => (before.getD ∅).get? key

theorem lastChange?_literals (key : String) (value : List Char → α) (literals : List String) :
    lastChange? key
        (literals.map fun literal => .set (nameOf literal) (value (textOf literal))) =
      (literals.filter (fun literal => nameOf literal = key)).getLast?.map
        fun literal => .set (value (textOf literal)) := by
  rw [lastChange?_eq, entriesFor, List.filter_map, List.getLast?_map, Option.map_map]
  rfl

theorem lastChange?_unset (key : String) (unset : List String) :
    lastChange? key (unset.map (Entry.delete : String → Entry α)) =
      if key ∈ unset then some .delete else none := by
  induction unset with
  | nil => rfl
  | cons other rest ih =>
    rw [List.map_cons, lastChange?, ih]
    by_cases hrest : key ∈ rest
    · simp [hrest]
    · by_cases hkey : other = key
      · simp [Entry.delete, hkey, hrest]
      · simp [Entry.delete, hkey, hrest, Ne.symm hkey]

theorem overlays_merge (literals unset : List String) (value : List Char → α)
    (before : Option (SortedMap α)) :
    Overlays literals unset value before (some (merge (before.getD ∅)
      ((literals.map fun literal => .set (nameOf literal) (value (textOf literal))) ++
        unset.map Entry.delete))) := by
  refine ⟨_, rfl, fun key => ?_⟩
  rw [get?_merge, lastChange?_append, lastChange?_unset, lastChange?_literals]
  by_cases hunset : key ∈ unset
  · rw [if_pos hunset, if_pos hunset]
    rfl
  · rw [if_neg hunset, if_neg hunset, Option.none_or]
    cases (literals.filter (fun literal => nameOf literal = key)).getLast? <;> rfl

end AppRoutes
