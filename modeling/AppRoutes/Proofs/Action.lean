/-
Running operations.

An operation answers or fails and leaves a state in both cases.  The lemmas here run the
parts of an operation one after another, so that no later proof opens the monad.  `Leaves` says
that an operation does not touch a part of the state.
-/
import AppRoutes.Backend

namespace AppRoutes
namespace Action

variable {σ α β : Type}

@[simp]
theorem runOn_get (s : σ) : (get : Action σ σ).runOn s = (.ok s, s) := rfl

theorem runOn_bind (first : Action σ α) (next : α → Action σ β) (s : σ) :
    (first >>= next).runOn s =
      match first.runOn s with
      | (.ok a, t) => (next a).runOn t
      | (.error e, t) => (.error e, t) := by
  show (match first.runOn s with | (a, t) => StateT.run (ExceptT.bindCont next a) t) = _
  rcases first.runOn s with ⟨a | e, t⟩ <;> rfl

theorem runOn_bind_of_ok {first : Action σ α} {next : α → Action σ β} {s t : σ} {a : α}
    (h : first.runOn s = (.ok a, t)) : (first >>= next).runOn s = (next a).runOn t := by
  rw [runOn_bind, h]

theorem runOn_map (f : α → β) (action : Action σ α) (s : σ) :
    (f <$> action).runOn s = ((action.runOn s).1.map f, (action.runOn s).2) := by
  show (action >>= fun a => pure (f a)).runOn s = _
  rw [runOn_bind]
  rcases action.runOn s with ⟨a | e, t⟩ <;> rfl

theorem runOn_discard (action : Action σ α) (s : σ) :
    (discard action).runOn s = ((action.runOn s).1.map (fun _ => ()), (action.runOn s).2) :=
  runOn_map (fun _ => ()) action s

/-- Narrowing the errors of an operation leaves its answers and its states alone. -/
theorem runOn_surfacing (allowed : List Category) (action : Action σ α) (s : σ) :
    (action.surfacing allowed).runOn s =
      ((action.runOn s).1.mapError (Error.surfaceOnly allowed), (action.runOn s).2) := rfl

/-- Whatever the operation comes to, a part of the state is as it was. -/
def Leaves {π : Type} (part : σ → π) (action : Action σ α) : Prop :=
  ∀ s, part (action.runOn s).2 = part s

section

variable {π : Type} {part : σ → π}

theorem Leaves.bind {first : Action σ α} {next : α → Action σ β} (hfirst : Leaves part first)
    (hnext : ∀ a, Leaves part (next a)) : Leaves part (first >>= next) := by
  intro s
  have hs := hfirst s
  rw [runOn_bind]
  rcases hrun : first.runOn s with ⟨e | a, t⟩
  · rw [hrun] at hs
    exact hs
  · rw [hrun] at hs
    exact (hnext a t).trans hs

theorem Leaves.map {action : Action σ α} (h : Leaves part action) (f : α → β) :
    Leaves part (f <$> action) := by
  intro s
  rw [runOn_map]
  exact h s

theorem Leaves.surfacing {action : Action σ α} (h : Leaves part action)
    (allowed : List Category) : Leaves part (action.surfacing allowed) := h

end

end Action
end AppRoutes
