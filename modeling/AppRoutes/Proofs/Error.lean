/-
Errors that answers stand for.

A status and a message make an error, and the error tells both again, so nothing is lost
when an error travels as an answer.  Narrowing never makes an error blame the arguments.
-/
import AppRoutes.Error

namespace AppRoutes
namespace Error

/-- The error of an answer that reports a failure and says why. -/
def IsAnswer (e : Error) : Prop :=
  ∃ status message, e = ofStatus status message ∧ 400 ≤ status ∧ status ≤ 599 ∧ message ≠ ""

theorem ofStatus_of_ne {status : Nat} (message : String) (h400 : status ≠ 400)
    (h404 : status ≠ 404) (h409 : status ≠ 409) :
    ofStatus status message = .unexpected message (some status) := by
  rw [ofStatus, if_neg h400, if_neg h404, if_neg h409]

theorem message_ofStatus (status : Nat) (text : String) : (ofStatus status text).message = text := by
  unfold ofStatus
  split
  · rfl
  · split
    · rfl
    · split <;> rfl

/-- The status of the answer that an error stands for. -/
def answered? (e : Error) : Option Nat := e.category.status?.or e.status?

theorem answered?_ofStatus (status : Nat) (message : String) :
    (ofStatus status message).answered? = some status := by
  by_cases h400 : status = 400
  · subst h400
    rfl
  · by_cases h404 : status = 404
    · subst h404
      rfl
    · by_cases h409 : status = 409
      · subst h409
        rfl
      · rw [ofStatus_of_ne message h400 h404 h409]
        rfl

theorem category_ofStatus_ne_validation (status : Nat) (message : String) :
    (ofStatus status message).category ≠ .validation := by
  unfold ofStatus
  split
  · exact nofun
  · split
    · exact nofun
    · split <;> exact nofun

theorem IsAnswer.category_ne_validation {e : Error} (h : e.IsAnswer) :
    e.category ≠ .validation := by
  obtain ⟨status, message, rfl, -⟩ := h
  exact category_ofStatus_ne_validation status message

/-- Narrowing leaves the categories that an operation documents, and turns the other remote
ones into unexpected errors. -/
theorem category_surfaceOnly {e : Error} (h : e.category ≠ .validation)
    (allowed : List Category) :
    (e.surfaceOnly allowed).category ∈ allowed ∨
      (e.surfaceOnly allowed).category = .unexpected := by
  unfold surfaceOnly
  split
  · exact Or.inr rfl
  · rename_i hkept
    cases e with
    | validation m => exact absurd rfl h
    | unexpected m status => exact Or.inr rfl
    | notFound m | conflict m | badRequest m =>
      refine Or.inl (Decidable.of_not_not fun hnot => hkept ?_)
      simp only [Bool.and_eq_true, decide_eq_true_eq]
      exact ⟨rfl, hnot⟩

theorem category_surfaceOnly_ne_validation {e : Error} (h : e.category ≠ .validation)
    (allowed : List Category) : (e.surfaceOnly allowed).category ≠ .validation := by
  unfold surfaceOnly
  split
  · exact nofun
  · exact h

end Error

namespace Category

/-- The category that a status stands for. -/
def ofStatus (status : Nat) : Category :=
  if status = 400 then .badRequest
  else if status = 404 then .notFound
  else if status = 409 then .conflict
  else .unexpected

/-- The category as an operation surfaces it. -/
def narrowed (allowed : List Category) (category : Category) : Category :=
  if category ∈ allowed then category else .unexpected

end Category

namespace Error

theorem category_ofStatus (status : Nat) (message : String) :
    (ofStatus status message).category = Category.ofStatus status := by
  unfold ofStatus Category.ofStatus
  split
  · rfl
  · split
    · rfl
    · split <;> rfl

/-- An error that stands for an answer is narrowed by its category alone, and an unexpected one
tells the status of the answer. -/
theorem surfaceOnly_of_answered? {e : Error} {status : Nat} (h : e.answered? = some status)
    (hblame : e.category ≠ .validation) (allowed : List Category) :
    (e.surfaceOnly allowed).category = e.category.narrowed allowed ∧
      ((e.surfaceOnly allowed).category = .unexpected →
        (e.surfaceOnly allowed).status? = some status) := by
  cases e with
  | validation m => exact absurd rfl hblame
  | unexpected m kept => exact ⟨(ite_self _).symm, fun _ => h⟩
  | notFound m | conflict m | badRequest m =>
    rw [surfaceOnly, Category.narrowed]
    split
    · rename_i hdrop
      simp only [Bool.and_eq_true, decide_eq_true_eq] at hdrop
      rw [if_neg hdrop.2]
      exact ⟨rfl, fun _ => h⟩
    · rename_i hkeep
      simp only [Bool.and_eq_true, decide_eq_true_eq] at hkeep
      rw [if_pos (Decidable.of_not_not fun hnot => hkeep ⟨rfl, hnot⟩)]
      exact ⟨rfl, nofun⟩

end Error

/-- If the outcome is an error, it does not blame the arguments. -/
def Blameless {α : Type} (outcome : Except Error α) : Prop :=
  ∀ e, outcome = .error e → e.category ≠ .validation

theorem blameless_ok {α : Type} (a : α) : Blameless (.ok a : Except Error α) := nofun

theorem blameless_error {α : Type} {e : Error} (h : e.category ≠ .validation) :
    Blameless (.error e : Except Error α) := by
  intro e' he
  cases he
  exact h

theorem blameless_bind {α β : Type} {first : Except Error α} {next : α → Except Error β}
    (hfirst : Blameless first) (hnext : ∀ a, Blameless (next a)) :
    Blameless (first >>= next) := by
  cases first with
  | error e => exact blameless_error (hfirst e rfl)
  | ok a => exact hnext a

theorem blameless_map {α β : Type} {outcome : Except Error α} (h : Blameless outcome) (f : α → β) :
    Blameless (outcome.map f) := by
  cases outcome with
  | error e => exact blameless_error (h e rfl)
  | ok a => exact blameless_ok (f a)

/-- Narrowing an operation's errors does not put the blame on its arguments. -/
theorem blameless_surfaceOnly {α : Type} {outcome : Except Error α} (h : Blameless outcome)
    (allowed : List Category) : Blameless (outcome.mapError (Error.surfaceOnly allowed)) := by
  cases outcome with
  | error e => exact blameless_error (Error.category_surfaceOnly_ne_validation (h e rfl) allowed)
  | ok a => exact blameless_ok a

end AppRoutes
