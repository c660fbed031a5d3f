/-
Applying entry changes to a map, in order: the last entry for a key decides.
-/
import AppRoutes.Delta.Basic

namespace AppRoutes

variable {α : Type}

def Entry.applyTo (entry : Entry α) (map : SortedMap α) : SortedMap α :=
  match entry.change with
  | .set value => map.insert entry.key value
  | .delete => map.erase entry.key

def merge (map : SortedMap α) (entries : List (Entry α)) : SortedMap α :=
  entries.foldl (fun map entry => entry.applyTo map) map

theorem merge_nil (map : SortedMap α) : merge map [] = map := rfl

theorem merge_cons (map : SortedMap α) (entry : Entry α) (rest : List (Entry α)) :
    merge map (entry :: rest) = merge (entry.applyTo map) rest := rfl

theorem merge_append (map : SortedMap α) (first second : List (Entry α)) :
    merge map (first ++ second) = merge (merge map first) second :=
  List.foldl_append

/-- A key sees only the entries that name it. -/
theorem get?_applyTo (entry : Entry α) (map : SortedMap α) (key : String) :
    (entry.applyTo map).get? key =
      if entry.key = key then
        match entry.change with
        | .set value => some value
        | .delete => none
      else map.get? key := by
  unfold Entry.applyTo
  split <;> simp [SortedMap.get?_insert, SortedMap.get?_erase]

end AppRoutes
