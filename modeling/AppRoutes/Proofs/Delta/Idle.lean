/-
Deltas that change nothing.

A delta leaves every route as it is exactly if it names no attribute and lists no entry; entries
count even if they cancel each other.  One route is enough to tell: the probe of a delta is a
bare route, with the last key that the delta deletes put into each map.  Attributes that are named
show on it because they are unset there, and a last entry shows because its key is missing if it
is set and there if it is deleted.
-/
import AppRoutes.Proofs.Delta.Sequence

namespace AppRoutes

section

variable {α : Type}

/-- The map that has nothing but the key of the last entry, if that one is a deletion. -/
def probeMap (value : α) (entries : List (Entry α)) : SortedMap α :=
  match entries.getLast? with
  | some ⟨key, .delete⟩ => (∅ : SortedMap α).insert key value
  | some ⟨_, .set _⟩ | none => ∅

theorem get?_probeMap (value : α) (earlier : List (Entry α)) (last : Entry α) :
    (probeMap value (earlier ++ [last])).get? last.key =
      match last.change with
      | .set _ => none
      | .delete => some value := by
  obtain ⟨key, change⟩ := last
  rw [probeMap, List.getLast?_concat]
  cases change with
  | set _ => rfl
  | delete => exact (SortedMap.get?_insert _ _ _ _).trans (if_pos rfl)

/-- Whatever stands before it, the last entry shows on the probe. -/
theorem merge_probeMap_ne (value : α) (earlier : List (Entry α)) (last : Entry α) :
    merge (probeMap value (earlier ++ [last])) (earlier ++ [last]) ≠
      probeMap value (earlier ++ [last]) := by
  intro h
  have hlast : lastChange? last.key (earlier ++ [last]) = some last.change := by
    rw [lastChange?_append, lastChange?, if_pos rfl]
    rfl
  have hkey := congrArg (SortedMap.get? · last.key) h
  rw [get?_merge, hlast, get?_probeMap] at hkey
  cases hchange : last.change with
  | set v => rw [hchange] at hkey; cases hkey
  | delete => rw [hchange] at hkey; cases hkey

theorem merge_probeMap_eq_iff (value : α) (entries : List (Entry α)) :
    merge (probeMap value entries) entries = probeMap value entries ↔ entries = [] := by
  rcases List.eq_nil_or_concat entries with rfl | ⟨earlier, last, rfl⟩
  · exact iff_of_true rfl rfl
  · rw [List.concat_eq_append]
    exact iff_of_false (merge_probeMap_ne value earlier last) (by simp)

end

theorem nonempty?_eq_none_iff {text : Option String} :
    nonempty? text = none ↔ text = none ∨ text = some "" := by
  cases text with
  | none => simp [nonempty?]
  | some text => by_cases h : text = "" <;> simp [nonempty?, h]

/-- A text that counts shows on an unset attribute. -/
theorem getD_nonempty?_eq_empty_iff {text : Option String} :
    (nonempty? text).getD "" = "" ↔ nonempty? text = none := by
  cases text with
  | none => simp [nonempty?]
  | some text => by_cases h : text = "" <;> simp [nonempty?, h]

section

variable {α : Type} [DecidableEq α] [OfNat α (nat_lit 0)]

theorem nonzero?_eq_none_iff {number : Option α} :
    nonzero? number = none ↔ number = none ∨ number = some 0 := by
  cases number with
  | none => simp [nonzero?]
  | some n => by_cases h : n = 0 <;> simp [nonzero?, h]

theorem getD_nonzero?_eq_zero_iff {number : Option α} :
    (nonzero? number).getD 0 = 0 ↔ nonzero? number = none := by
  cases number with
  | none => simp [nonzero?]
  | some n => by_cases h : n = 0 <;> simp [nonzero?, h]

end

namespace Delta

/-- The delta has no value for any attribute, where empty texts and zeros that a route counts as
unset are no values, and it has no entries. -/
structure NamesNothing (delta : Delta) : Prop where
  image : delta.image = none ∨ delta.image = some ""
  memory : delta.memory = none ∨ delta.memory = some 0
  type : delta.type = none
  format : delta.format = none ∨ delta.format = some ""
  maxConcurrency : delta.maxConcurrency = none ∨ delta.maxConcurrency = some 0
  timeout : delta.timeout = none
  config : delta.config = []
  headers : delta.headers = []

/-- No route that has both maps is changed. -/
def IsIdle (delta : Delta) : Prop :=
  ∀ route : Route, route.config ≠ none → route.headers ≠ none → route.apply delta = route

/-- The route on which the delta shows what it does. -/
def probe (delta : Delta) : Route where
  config := some (probeMap "" delta.config)
  headers := some (probeMap [] delta.headers)

theorem namesNothing_of_isEmpty {delta : Delta} (h : delta.isEmpty = true) :
    delta.NamesNothing := by
  obtain rfl : delta = {} := by simpa [isEmpty] using h
  exact ⟨.inl rfl, .inl rfl, rfl, .inl rfl, .inl rfl, rfl, rfl, rfl⟩

theorem NamesNothing.isIdle {delta : Delta} (h : delta.NamesNothing) : delta.IsIdle := by
  intro route hconfig hheaders
  obtain ⟨config, hconfig⟩ := Option.ne_none_iff_exists'.mp hconfig
  obtain ⟨headers, hheaders⟩ := Option.ne_none_iff_exists'.mp hheaders
  rw [Route.apply_eq, nonempty?_eq_none_iff.mpr h.image, nonempty?_eq_none_iff.mpr h.format,
    nonzero?_eq_none_iff.mpr h.memory, nonzero?_eq_none_iff.mpr h.maxConcurrency, h.type,
    h.timeout, h.config, h.headers, merge_nil, merge_nil, hconfig, hheaders, Option.getD_some,
    Option.getD_some, ← hconfig, ← hheaders]
  rfl

theorem apply_probe_eq_iff (delta : Delta) :
    delta.probe.apply delta = delta.probe ↔ delta.NamesNothing := by
  rw [Route.apply_eq]
  simp only [probe, Route.mk.injEq, Option.getD_some, Option.or_none, Option.some.injEq, true_and,
    getD_nonempty?_eq_empty_iff, nonempty?_eq_none_iff, getD_nonzero?_eq_zero_iff,
    nonzero?_eq_none_iff, merge_probeMap_eq_iff]
  constructor
  · rintro ⟨himage, hmemory, htype, hformat, hlimit, htimeout, hconfig, hheaders⟩
    exact ⟨himage, hmemory, htype, hformat, hlimit, htimeout, hconfig, hheaders⟩
  · rintro ⟨himage, hmemory, htype, hformat, hlimit, htimeout, hconfig, hheaders⟩
    exact ⟨himage, hmemory, htype, hformat, hlimit, htimeout, hconfig, hheaders⟩

/-- A delta changes no route exactly if it names nothing; the empty delta does not, and whatever
a delta names, even a deletion alone, an entry that a later one takes back or a timeout of zero,
there is a route that it changes. -/
theorem idle_iff_names_nothing (delta : Delta) :
    (delta.IsIdle ↔ delta.NamesNothing) ∧ (delta.isEmpty = true → delta.IsIdle) ∧
      (¬ delta.NamesNothing → ∃ route : Route, route.config ≠ none ∧ route.headers ≠ none ∧
        route.apply delta ≠ route) := by
  refine ⟨⟨fun h => ?_, NamesNothing.isIdle⟩, fun h => (namesNothing_of_isEmpty h).isIdle,
    fun h => ?_⟩
  · exact (apply_probe_eq_iff delta).mp (h delta.probe nofun nofun)
  · exact ⟨delta.probe, nofun, nofun, fun heq => h ((apply_probe_eq_iff delta).mp heq)⟩

/-- A key that is set and then deleted again is missed where it was there before. -/
example : ¬ NamesNothing { config := [.set "a" "1", .delete "a"] } := fun h => nomatch h.config

/-- A timeout of zero is a value. -/
example : ¬ NamesNothing { timeout := some 0 } := fun h => nomatch h.timeout

end Delta
end AppRoutes
