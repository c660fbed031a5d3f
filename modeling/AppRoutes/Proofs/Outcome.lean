/-
Outcomes of readers.

A reader made of others accepts exactly if each of them does.  What it accepted is taken apart
here, so that later proofs follow the steps of a reader without looking at how it fails.
-/
import Mathlib.Data.List.Forall2

namespace AppRoutes

variable {ε ε' α β : Type}

theorem ok_of_bind {first : Except ε α} {next : α → Except ε β} {b : β}
    (h : first >>= next = .ok b) : ∃ a, first = .ok a ∧ next a = .ok b := by
  cases first with
  | error e => cases h
  | ok a => exact ⟨a, rfl, h⟩

theorem mapError_eq_ok {f : ε → ε'} {outcome : Except ε α} {a : α} :
    outcome.mapError f = .ok a ↔ outcome = .ok a := by
  constructor
  · intro h
    cases outcome with
    | error e => cases h
    | ok b =>
      cases h
      rfl
  · rintro rfl
    rfl

theorem toOption_eq_some_iff {outcome : Except ε α} {a : α} :
    outcome.toOption = some a ↔ outcome = .ok a := by
  cases outcome <;> simp [Except.toOption]

/-- Outcomes that agree on what is accepted differ at most in their errors. -/
theorem toOption_eq_of_iff {first second : Except ε α}
    (h : ∀ a, first = .ok a ↔ second = .ok a) : first.toOption = second.toOption := by
  apply Option.ext
  intro a
  rw [toOption_eq_some_iff, toOption_eq_some_iff, h a]

/-- A list is read item by item. -/
theorem mapM_eq_ok_iff {read : α → Except ε β} {texts : List α} {values : List β} :
    texts.mapM read = .ok values ↔
      List.Forall₂ (fun text value => read text = .ok value) texts values := by
  constructor
  · intro h
    induction texts generalizing values with
    | nil =>
      cases h
      exact List.Forall₂.nil
    | cons text texts ih =>
      rw [List.mapM_cons] at h
      obtain ⟨value, hvalue, hrest⟩ := ok_of_bind h
      obtain ⟨others, hothers, heq⟩ := ok_of_bind hrest
      cases heq
      exact List.Forall₂.cons hvalue (ih hothers)
  · intro h
    induction h with
    | nil => rfl
    | cons hvalue _ ih =>
      rw [List.mapM_cons, hvalue, ih]
      rfl

end AppRoutes
