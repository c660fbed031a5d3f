/-
The last entry for a key decides.

A list of entries is seen through one question: what its last entry for a key does.  A merge
answers look-ups by that alone, so a list merged a second time finds nothing left to do, and
only the order among entries for one key counts.
-/
import AppRoutes.Delta.Merge
import AppRoutes.Route.Wire

namespace AppRoutes

variable {α : Type}

/-- The value under a key once the change is made. -/
def Change.value? : Change α → Option α
  | .set value => some value
  | .delete => none

/-- What the last entry for a key does to it, if there is one. -/
def lastChange? (key : String) : List (Entry α) → Option (Change α)
  | [] => none
  | entry :: rest =>
    (lastChange? key rest).or (if entry.key = key then some entry.change else none)

theorem get?_applyTo_eq (entry : Entry α) (map : SortedMap α) (key : String) :
    (entry.applyTo map).get? key =
      if entry.key = key then entry.change.value? else map.get? key := by
  rw [get?_applyTo]
  cases entry.change <;> rfl

theorem get?_merge (map : SortedMap α) (entries : List (Entry α)) (key : String) :
    (merge map entries).get? key =
      match lastChange? key entries with
      | some change => change.value?
      | none => map.get? key := by
  induction entries generalizing map with
  | nil => rfl
  | cons entry rest ih =>
    rw [merge_cons, ih, lastChange?]
    cases hrest : lastChange? key rest with
    | some change => rfl
    | none =>
      rw [get?_applyTo_eq]
      by_cases hkey : entry.key = key
      · rw [if_pos hkey, if_pos hkey]
        rfl
      · rw [if_neg hkey, if_neg hkey]
        rfl

theorem merge_merge_self (map : SortedMap α) (entries : List (Entry α)) :
    merge (merge map entries) entries = merge map entries := by
  refine SortedMap.ext_get? (fun key => ?_)
  rw [get?_merge, get?_merge]
  cases lastChange? key entries <;> rfl

/-- The entries for a key, in order. -/
def entriesFor (key : String) (entries : List (Entry α)) : List (Entry α) :=
  entries.filter (fun entry => entry.key = key)

theorem entriesFor_cons (key : String) (entry : Entry α) (rest : List (Entry α)) :
    entriesFor key (entry :: rest) =
      if entry.key = key then entry :: entriesFor key rest else entriesFor key rest := by
  by_cases hkey : entry.key = key <;> simp [entriesFor, hkey]

theorem lastChange?_eq (key : String) (entries : List (Entry α)) :
    lastChange? key entries = (entriesFor key entries).getLast?.map Entry.change := by
  induction entries with
  | nil => rfl
  | cons entry rest ih =>
    rw [lastChange?, ih, entriesFor_cons]
    by_cases hkey : entry.key = key
    · rw [if_pos hkey, if_pos hkey, List.getLast?_cons]
      cases (entriesFor key rest).getLast? <;> rfl
    · rw [if_neg hkey, if_neg hkey, Option.or_none]

theorem lastChange?_append (key : String) (first second : List (Entry α)) :
    lastChange? key (first ++ second) = (lastChange? key second).or (lastChange? key first) := by
  rw [lastChange?_eq, lastChange?_eq, lastChange?_eq, entriesFor, List.filter_append,
    List.getLast?_append, Option.map_or]
  rfl

/-- The order of entries counts only among those for one key. -/
theorem merge_congr {first second : List (Entry α)}
    (h : ∀ key, entriesFor key first = entriesFor key second) (map : SortedMap α) :
    merge map first = merge map second := by
  refine SortedMap.ext_get? (fun key => ?_)
  rw [get?_merge, get?_merge, lastChange?_eq, lastChange?_eq, h key]

theorem keys_pairwise_lt (map : SortedMap α) : map.keys.Pairwise (· < ·) :=
  List.pairwise_map.mpr map.ascending

theorem nodup_keys (map : SortedMap α) : map.keys.Nodup := by
  refine (keys_pairwise_lt map).imp (fun {a b} hlt heq => ?_)
  exact String.lt_irrefl b (heq ▸ hlt)

/-- Of the entries for a key the last one decides: it sets the value or removes it, and a key
without entries keeps what it has.  So the keys stay in strict order, a list may be merged
again, two lists in turn are one, and entries for different keys may change places. -/
theorem merge_last_entry_decides (map : SortedMap α) (entries : List (Entry α)) :
    (∀ key, (merge map entries).get? key =
      match (entriesFor key entries).getLast? with
      | some ⟨_, .set value⟩ => some value
      | some ⟨_, .delete⟩ => none
      | none => map.get? key) ∧
    (merge map entries).keys.Pairwise (· < ·) ∧ (merge map entries).keys.Nodup ∧
    merge (merge map entries) entries = merge map entries ∧
    (∀ later, merge (merge map entries) later = merge map (entries ++ later)) ∧
    ∀ reordered, (∀ key, entriesFor key reordered = entriesFor key entries) →
      merge map reordered = merge map entries ∧
      ∀ (toValue : α → Json.Value) (layout : Json.Layout),
        ((merge map reordered).toValue toValue).render layout =
          ((merge map entries).toValue toValue).render layout := by
  have hlookup : ∀ key, (merge map entries).get? key =
      match (entriesFor key entries).getLast? with
      | some ⟨_, .set value⟩ => some value
      | some ⟨_, .delete⟩ => none
      | none => map.get? key := by
    intro key
    rw [get?_merge, lastChange?_eq]
    rcases (entriesFor key entries).getLast? with _ | ⟨_, value | _⟩ <;> rfl
  refine ⟨hlookup, keys_pairwise_lt _, nodup_keys _, merge_merge_self map entries,
    fun later => (merge_append map entries later).symm, fun reordered horder => ?_⟩
  have hsame := merge_congr horder map
  exact ⟨hsame, fun toValue layout => by rw [hsame]⟩

/-- A key that is set and deleted again keeps its order when another key is set before it. -/
theorem merge_last_entry_decides_swapped :
    (∀ key, entriesFor key [Entry.set "b" "2", .set "-a" "1", .delete "-a"] =
      entriesFor key [.set "-a" "1", .set "b" "2", .delete "-a"]) ∧
    merge ∅ [Entry.set "b" "2", .set "-a" "1", .delete "-a"] =
      merge ∅ [.set "-a" "1", .set "b" "2", .delete "-a"] := by
  have horder : ∀ key, entriesFor key [Entry.set "b" "2", .set "-a" "1", .delete "-a"] =
      entriesFor key [.set "-a" "1", .set "b" "2", .delete "-a"] := by
    intro key
    by_cases ha : "-a" = key
    · subst ha
      decide
    · simp only [entriesFor_cons, Entry.set, Entry.delete, if_neg ha]
  obtain ⟨-, -, -, -, -, hreorder⟩ :=
    merge_last_entry_decides ∅ [Entry.set "-a" "1", .set "b" "2", .delete "-a"]
  exact ⟨horder, (hreorder _ horder).1⟩

end AppRoutes
