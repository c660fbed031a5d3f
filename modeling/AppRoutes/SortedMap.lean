/-
Finite maps with text keys, kept in the order in which they are written.

The entries are a list in strictly ascending key order, and the order is a field of the
type, so the list is a normal form: two maps with the same lookups are equal
(`SortedMap.ext_get?`), and printing a map needs no sorting.  Keys compare by code point.
-/
namespace AppRoutes

/-- A finite map from text to `α`, as its entries in strictly ascending key order. -/
structure SortedMap (α : Type) where
  entries : List (String × α)
  ascending : entries.Pairwise (fun a b => a.1 < b.1)

namespace SortedMap

variable {α : Type}

@[ext]
theorem ext_entries {m n : SortedMap α} (h : m.entries = n.entries) : m = n := by
  cases m
  cases n
  cases h
  rfl

instance [DecidableEq α] : DecidableEq (SortedMap α) := fun m n =>
  if h : m.entries = n.entries then isTrue (ext_entries h)
  else isFalse (fun e => h (congrArg entries e))

def empty : SortedMap α := ⟨[], List.Pairwise.nil⟩

instance : EmptyCollection (SortedMap α) := ⟨empty⟩

instance : Inhabited (SortedMap α) := ⟨empty⟩

def isEmpty (m : SortedMap α) : Bool := m.entries.isEmpty

def keys (m : SortedMap α) : List String := m.entries.map (·.1)

/-! ## Entry lists

Insertion is one pass that replaces an entry with the same key; lookup and removal do not
depend on the order at all. -/

def lookupEntry (key : String) : List (String × α) → Option α
  | [] => none
  | (k, v) :: rest => if k = key then some v else lookupEntry key rest

def insertEntry (key : String) (value : α) : List (String × α) → List (String × α)
  | [] => [(key, value)]
  | (k, v) :: rest =>
    if key < k then (key, value) :: (k, v) :: rest
    else if k = key then (key, value) :: rest
    else (k, v) :: insertEntry key value rest

def eraseEntry (key : String) : List (String × α) → List (String × α)
  | [] => []
  | (k, v) :: rest => if k = key then eraseEntry key rest else (k, v) :: eraseEntry key rest

theorem fst_mem_insertEntry {key : String} {value : α} {entries : List (String × α)}
    {entry : String × α} (h : entry ∈ insertEntry key value entries) :
    entry.1 = key ∨ entry ∈ entries := by
  induction entries with
  | nil =>
    rw [insertEntry, List.mem_singleton] at h
    exact Or.inl (congrArg Prod.fst h)
  | cons first rest ih =>
    obtain ⟨k, v⟩ := first
    rw [insertEntry] at h
    split at h
    · rcases List.mem_cons.mp h with h | h
      · exact Or.inl (congrArg Prod.fst h)
      · exact Or.inr h
    · split at h
      · rcases List.mem_cons.mp h with h | h
        · exact Or.inl (congrArg Prod.fst h)
        · exact Or.inr (List.mem_cons_of_mem _ h)
      · rcases List.mem_cons.mp h with h | h
        · exact Or.inr (h ▸ List.mem_cons_self)
        · exact (ih h).imp_right (List.mem_cons_of_mem _)

/-- Of two different texts that are not in order, the other order holds. -/
theorem lt_of_not_lt {a b : String} (h : ¬a < b) (hne : b ≠ a) : b < a :=
  Decidable.byContradiction fun h' =>
    hne (String.le_antisymm (String.not_lt.mp h) (String.not_lt.mp h'))

theorem insertEntry_ascending (key : String) (value : α) {entries : List (String × α)}
    (h : entries.Pairwise (fun a b => a.1 < b.1)) :
    (insertEntry key value entries).Pairwise (fun a b => a.1 < b.1) := by
  induction entries with
  | nil => exact List.pairwise_singleton _ _
  | cons first rest ih =>
    obtain ⟨k, v⟩ := first
    obtain ⟨hfirst, hrest⟩ := List.pairwise_cons.mp h
    rw [insertEntry]
    split
    · rename_i hlt
      refine List.pairwise_cons.mpr ⟨fun entry hmem => ?_, h⟩
      rcases List.mem_cons.mp hmem with rfl | hmem
      · exact hlt
      · exact String.lt_trans hlt (hfirst entry hmem)
    · rename_i hlt
      split
      · rename_i heq
        subst heq
        exact List.pairwise_cons.mpr ⟨hfirst, hrest⟩
      · rename_i hne
        refine List.pairwise_cons.mpr ⟨fun entry hmem => ?_, ih hrest⟩
        rcases fst_mem_insertEntry hmem with heq | hmem
        · exact heq ▸ lt_of_not_lt hlt hne
        · exact hfirst entry hmem

theorem eraseEntry_sublist (key : String) (entries : List (String × α)) :
    (eraseEntry key entries).Sublist entries := by
  induction entries with
  | nil => exact List.Sublist.refl _
  | cons first rest ih =>
    rw [eraseEntry]
    split
    · exact ih.cons _
    · exact ih.cons_cons _

def get? (m : SortedMap α) (key : String) : Option α := lookupEntry key m.entries

def contains (m : SortedMap α) (key : String) : Bool := (m.get? key).isSome

def insert (m : SortedMap α) (key : String) (value : α) : SortedMap α :=
  ⟨insertEntry key value m.entries, insertEntry_ascending key value m.ascending⟩

def erase (m : SortedMap α) (key : String) : SortedMap α :=
  ⟨eraseEntry key m.entries, m.ascending.sublist (eraseEntry_sublist key m.entries)⟩

/-- The map of a list of pairs, where a later pair replaces an earlier one. -/
def ofList (pairs : List (String × α)) : SortedMap α :=
  pairs.foldl (fun m pair => m.insert pair.1 pair.2) ∅

@[simp]
theorem get?_empty (key : String) : (∅ : SortedMap α).get? key = none := rfl

theorem lookupEntry_insertEntry (key : String) (value : α) (entries : List (String × α))
    (k : String) :
    lookupEntry k (insertEntry key value entries) =
      if key = k then some value else lookupEntry k entries := by
  induction entries with
  | nil => rfl
  | cons first rest ih =>
    obtain ⟨k', v'⟩ := first
    rw [insertEntry]
    split
    · rfl
    · split
      · rename_i heq
        subst heq
        by_cases h : k' = k <;> simp [lookupEntry, h]
      · rename_i hne
        by_cases h : k' = k
        · have : key ≠ k := fun e => hne (h.trans e.symm)
          simp [lookupEntry, h, this]
        · simp [lookupEntry, h, ih]

theorem lookupEntry_eraseEntry (key : String) (entries : List (String × α)) (k : String) :
    lookupEntry k (eraseEntry key entries) =
      if key = k then none else lookupEntry k entries := by
  induction entries with
  | nil => simp [eraseEntry, lookupEntry]
  | cons first rest ih =>
    obtain ⟨k', v'⟩ := first
    rw [eraseEntry]
    split
    · rename_i heq
      subst heq
      by_cases hk : k' = k
      · rw [ih, if_pos hk, if_pos hk]
      · rw [ih, lookupEntry, if_neg hk, if_neg hk, if_neg hk]
    · rename_i hne
      by_cases hk : k' = k
      · have : key ≠ k := fun e => hne (hk.trans e.symm)
        simp [lookupEntry, hk, this]
      · simp [lookupEntry, hk, ih]

theorem get?_insert (m : SortedMap α) (key : String) (value : α) (k : String) :
    (m.insert key value).get? k = if key = k then some value else m.get? k :=
  lookupEntry_insertEntry key value m.entries k

theorem get?_erase (m : SortedMap α) (key k : String) :
    (m.erase key).get? k = if key = k then none else m.get? k :=
  lookupEntry_eraseEntry key m.entries k

theorem lookupEntry_eq_none_of_lt {key : String} {entries : List (String × α)}
    (h : ∀ entry ∈ entries, key < entry.1) : lookupEntry key entries = none := by
  induction entries with
  | nil => rfl
  | cons first rest ih =>
    obtain ⟨k, v⟩ := first
    have hne : k ≠ key := fun e => String.lt_irrefl key (e ▸ h (k, v) List.mem_cons_self)
    rw [lookupEntry, if_neg hne]
    exact ih (fun entry hmem => h entry (List.mem_cons_of_mem _ hmem))

theorem mem_iff_lookupEntry {entries : List (String × α)}
    (h : entries.Pairwise (fun a b => a.1 < b.1)) {key : String} {value : α} :
    (key, value) ∈ entries ↔ lookupEntry key entries = some value := by
  induction entries with
  | nil => simp [lookupEntry]
  | cons first rest ih =>
    obtain ⟨k, v⟩ := first
    obtain ⟨hfirst, hrest⟩ := List.pairwise_cons.mp h
    rw [lookupEntry, List.mem_cons]
    by_cases hk : k = key
    · subst hk
      have hnot : (k, value) ∉ rest := fun hmem => String.lt_irrefl k (hfirst _ hmem)
      simp [hnot, eq_comm]
    · rw [if_neg hk, ih hrest]
      simp [Ne.symm hk]

/-- Ascending entry lists with the same lookups are the same list. -/
theorem entries_eq_of_lookupEntry {l₁ l₂ : List (String × α)}
    (h₁ : l₁.Pairwise (fun a b => a.1 < b.1)) (h₂ : l₂.Pairwise (fun a b => a.1 < b.1))
    (h : ∀ key, lookupEntry key l₁ = lookupEntry key l₂) : l₁ = l₂ := by
  induction l₁ generalizing l₂ with
  | nil =>
    cases l₂ with
    | nil => rfl
    | cons first rest =>
      have := h first.1
      simp [lookupEntry] at this
  | cons first rest ih =>
    obtain ⟨k, v⟩ := first
    obtain ⟨hfirst, hrest⟩ := List.pairwise_cons.mp h₁
    cases l₂ with
    | nil =>
      have := h k
      simp [lookupEntry] at this
    | cons first' rest' =>
      obtain ⟨k', v'⟩ := first'
      obtain ⟨hfirst', hrest'⟩ := List.pairwise_cons.mp h₂
      have hkk : k = k' := by
        apply Decidable.byContradiction
        intro hne
        by_cases hlt : k < k'
        · have := h k
          rw [@lookupEntry_eq_none_of_lt _ _ ((k', v') :: rest')] at this
          · simp [lookupEntry] at this
          · intro entry hmem
            rcases List.mem_cons.mp hmem with rfl | hmem
            · exact hlt
            · exact String.lt_trans hlt (hfirst' entry hmem)
        · have hgt : k' < k := lt_of_not_lt hlt (Ne.symm hne)
          have := h k'
          rw [@lookupEntry_eq_none_of_lt _ _ ((k, v) :: rest)] at this
          · simp [lookupEntry] at this
          · intro entry hmem
            rcases List.mem_cons.mp hmem with rfl | hmem
            · exact hgt
            · exact String.lt_trans hgt (hfirst entry hmem)
      subst hkk
      have hv : v = v' := by
        have := h k
        simpa [lookupEntry] using this
      subst hv
      have htail : rest = rest' := by
        apply ih hrest hrest'
        intro key
        by_cases hkey : k = key
        · subst hkey
          rw [lookupEntry_eq_none_of_lt hfirst, lookupEntry_eq_none_of_lt hfirst']
        · have := h key
          simpa [lookupEntry, hkey] using this
      rw [htail]

/-- Maps with the same lookups are equal. -/
theorem ext_get? {m n : SortedMap α} (h : ∀ key, m.get? key = n.get? key) : m = n :=
  ext_entries (entries_eq_of_lookupEntry m.ascending n.ascending h)

theorem mem_entries_iff {m : SortedMap α} {key : String} {value : α} :
    (key, value) ∈ m.entries ↔ m.get? key = some value :=
  mem_iff_lookupEntry m.ascending

/-! ## Maps from lists -/

/-- Inserting ascending entries gives each key its entry and leaves the other keys alone. -/
theorem get?_foldl_insert {entries : List (String × α)}
    (h : entries.Pairwise (fun a b => a.1 < b.1)) (m : SortedMap α) (key : String) :
    (entries.foldl (fun m entry => m.insert entry.1 entry.2) m).get? key =
      (lookupEntry key entries).or (m.get? key) := by
  induction entries generalizing m with
  | nil => rfl
  | cons first rest ih =>
    obtain ⟨k, v⟩ := first
    obtain ⟨hfirst, hrest⟩ := List.pairwise_cons.mp h
    rw [List.foldl_cons, ih hrest, get?_insert, lookupEntry]
    by_cases hk : k = key
    · subst hk
      rw [lookupEntry_eq_none_of_lt hfirst, if_pos rfl, if_pos rfl]
      rfl
    · rw [if_neg hk, if_neg hk]

/-- Inserting entries with different keys gives each key its entry, in whatever order they
stand. -/
theorem get?_foldl_insert_eq_some_iff {pairs : List (String × α)}
    (h : (pairs.map Prod.fst).Nodup) (m : SortedMap α) {key : String} {value : α} :
    (pairs.foldl (fun m pair => m.insert pair.1 pair.2) m).get? key = some value ↔
      (key, value) ∈ pairs ∨ key ∉ pairs.map Prod.fst ∧ m.get? key = some value := by
  induction pairs generalizing m with
  | nil => simp
  | cons first rest ih =>
    obtain ⟨k, v⟩ := first
    obtain ⟨hfirst, hrest⟩ := List.nodup_cons.mp h
    rw [List.foldl_cons, ih hrest, get?_insert]
    by_cases hk : k = key
    · subst hk
      have hnot : (k, value) ∉ rest := fun hmem =>
        hfirst (List.mem_map.mpr ⟨_, hmem, rfl⟩)
      have hkey : k ∉ rest.map Prod.fst := hfirst
      simp [hnot, hkey, eq_comm]
    · simp [hk, Ne.symm hk]

theorem get?_ofList_eq_some_iff {pairs : List (String × α)} (h : (pairs.map Prod.fst).Nodup)
    {key : String} {value : α} :
    (ofList pairs).get? key = some value ↔ (key, value) ∈ pairs := by
  rw [ofList, get?_foldl_insert_eq_some_iff h]
  simp

/-- A map is the map of its entries. -/
theorem ofList_entries (m : SortedMap α) : ofList m.entries = m := by
  refine ext_get? (fun key => ?_)
  rw [ofList, get?_foldl_insert m.ascending, get?_empty, Option.or_none]
  rfl

end SortedMap
end AppRoutes
