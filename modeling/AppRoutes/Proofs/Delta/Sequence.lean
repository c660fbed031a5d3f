/-
One delta after another.

Two deltas in turn come to one: the entries of both, the earlier ones first, and of each
attribute the value of the later delta where it names one.  A text names nothing when it is
empty, and a number that a route counts as unset names nothing when it is zero.
-/
import AppRoutes.Client
import AppRoutes.Directory
import AppRoutes.Proofs.Delta.Merge

namespace AppRoutes

/-- An option that counts a zero as nothing. -/
def nonzero? {α : Type} [DecidableEq α] [OfNat α (nat_lit 0)] : Option α → Option α
  | some n => if n = 0 then none else some n
  | none => none

/-- The delta that does what the two do in turn. -/
def Delta.andThen (first second : Delta) : Delta where
  image := (nonempty? second.image).or first.image
  memory := (nonzero? second.memory).or first.memory
  type := second.type.or first.type
  format := (nonempty? second.format).or first.format
  maxConcurrency := (nonzero? second.maxConcurrency).or first.maxConcurrency
  timeout := second.timeout.or first.timeout
  config := first.config ++ second.config
  headers := first.headers ++ second.headers

section

variable {α : Type} [DecidableEq α] [OfNat α (nat_lit 0)]

theorem getD_nonempty?_some (text old : String) :
    (nonempty? (some text)).getD old = if text.isEmpty then old else text := by
  by_cases h : text.isEmpty = true <;> simp [nonempty?, h]

theorem getD_nonzero?_some (number old : α) :
    (nonzero? (some number)).getD old = if number = 0 then old else number := by
  by_cases h : number = 0 <;> simp [nonzero?, h]

theorem nonempty?_or_nonempty? (later earlier : Option String) :
    nonempty? ((nonempty? later).or earlier) = (nonempty? later).or (nonempty? earlier) := by
  cases later with
  | none => rfl
  | some text => by_cases h : text.isEmpty = true <;> simp [nonempty?, h]

theorem nonzero?_or_nonzero? (later earlier : Option α) :
    nonzero? ((nonzero? later).or earlier) = (nonzero? later).or (nonzero? earlier) := by
  cases later with
  | none => rfl
  | some n => by_cases h : n = 0 <;> simp [nonzero?, h]

end

namespace Route

theorem apply_eq (route : Route) (delta : Delta) :
    route.apply delta =
      { route with
        config := some (merge (route.config.getD ∅) delta.config)
        headers := some (merge (route.headers.getD ∅) delta.headers)
        image := (nonempty? delta.image).getD route.image
        format := (nonempty? delta.format).getD route.format
        type := delta.type.or route.type
        maxConcurrency := (nonzero? delta.maxConcurrency).getD route.maxConcurrency
        memory := (nonzero? delta.memory).getD route.memory
        timeout := delta.timeout.or route.timeout } := by
  simp only [apply, Route.mk.injEq, true_and, and_true]
  refine ⟨?_, ?_, ?_, ?_⟩
  · cases delta.image with
    | none => rfl
    | some image => exact (getD_nonempty?_some image route.image).symm
  · cases delta.memory with
    | none => rfl
    | some memory => exact (getD_nonzero?_some memory route.memory).symm
  · cases delta.format with
    | none => rfl
    | some format => exact (getD_nonempty?_some format route.format).symm
  · cases delta.maxConcurrency with
    | none => rfl
    | some limit => exact (getD_nonzero?_some limit route.maxConcurrency).symm

theorem apply_apply (route : Route) (first second : Delta) :
    (route.apply first).apply second = route.apply (first.andThen second) := by
  simp only [apply_eq, Delta.andThen, Option.getD_some, merge_append, nonempty?_or_nonempty?,
    nonzero?_or_nonzero?, Option.getD_or, Option.or_assoc]

theorem apply_apply_self (route : Route) (delta : Delta) :
    (route.apply delta).apply delta = route.apply delta := by
  simp only [apply_eq, Option.getD_some, merge_merge_self, ← Option.getD_or, ← Option.or_assoc,
    Option.or_self]

/-- A route that was just submitted is ready to be sent again. -/
theorem prepare_apply_prepare (route : Route) (delta : Delta) :
    (route.prepare.apply delta).prepare = route.prepare.apply delta := rfl

end Route

namespace Client

open Directory

/-- What is kept of a route besides its identity is all that the next update sees. -/
theorem keep_merged_keep (app path : String) (route : Route) (delta : Delta) :
    keep app path (merged (keep app path route) (some delta)) =
      keep app path (merged route (some delta)) := rfl

theorem keep_merged_merged (app path : String) (route : Route) (first second : Delta) :
    keep app path (merged (keep app path (merged route (some first))) (some second)) =
      keep app path (merged route (some (first.andThen second))) := by
  rw [keep_merged_keep]
  show keep app path ((route.prepare.apply first).prepare.apply second) = _
  rw [Route.prepare_apply_prepare, Route.apply_apply]
  rfl

theorem keep_merged_self (app path : String) (route : Route) (delta : Delta) :
    keep app path (merged (keep app path (merged route (some delta))) (some delta)) =
      keep app path (merged route (some delta)) := by
  rw [keep_merged_keep]
  show keep app path ((route.prepare.apply delta).prepare.apply delta) = _
  rw [Route.prepare_apply_prepare, Route.apply_apply_self]
  rfl

end Client
end AppRoutes
