/-
What a command comes to for the backend.

A command prints beside what it does.  `Performs` looks past that: the command ends like one
operation on the backend, with its error, and leaves the backend as the operation does.
-/
import AppRoutes.Http.Remote
import AppRoutes.Program.Commands
import AppRoutes.Proofs.Action
import AppRoutes.Proofs.Descriptor

namespace AppRoutes.Program
namespace Handler

variable {σ α β : Type}

theorem runOn_bind (first : Handler σ α) (next : α → Handler σ β) (session : Session σ) :
    runOn (first >>= next) session =
      match first.runOn session with
      | (.ok a, after) => (next a).runOn after
      | (.error e, after) => (.error e, after) := by
  show (match first.runOn session with
    | (a, after) => StateT.run (ExceptT.bindCont next a) after) = _
  rcases first.runOn session with ⟨a | e, after⟩ <;> rfl

/-- Both parts of a handler that succeeds have succeeded. -/
theorem ok_of_runOn_bind {first : Handler σ α} {next : α → Handler σ β} {session : Session σ}
    {b : β} (h : (runOn (first >>= next) session).1 = .ok b) :
    ∃ a after, first.runOn session = (.ok a, after) ∧ ((next a).runOn after).1 = .ok b := by
  rw [runOn_bind] at h
  rcases hfirst : first.runOn session with ⟨e | a, after⟩
  · rw [hfirst] at h
    cases h
  · rw [hfirst] at h
    exact ⟨a, after, rfl, h⟩

theorem runOn_operate (action : Action σ α) (session : Session σ) :
    (operate action).runOn session =
      ((action.runOn session.backend).1.mapError .operation,
        { session with backend := (action.runOn session.backend).2 }) := by
  have hget : (get : Handler σ (Session σ)).runOn session = (.ok session, session) := rfl
  rw [operate, runOn_bind, hget]
  dsimp only
  rcases action.runOn session.backend with ⟨e | a, after⟩ <;> rfl

/-- The error of an operation is reported as it is. -/
theorem mapError_operation_eq_error {outcome : Except Error α} {e : Error} :
    outcome.mapError Failure.operation = .error (.operation e) ↔ outcome = .error e := by
  cases outcome with
  | ok a => exact ⟨nofun, nofun⟩
  | error e' =>
    constructor
    · intro h
      cases h
      rfl
    · intro h
      cases h
      rfl

/-- Whatever is printed, the handler ends like the operation and leaves the backend alike. -/
def Performs (handler : Handler σ α) (action : Action σ α) : Prop :=
  ∀ session, (handler.runOn session).1 =
      (action.runOn session.backend).1.mapError Failure.operation ∧
    (handler.runOn session).2.backend = (action.runOn session.backend).2

theorem performs_pure (a : α) : Performs (pure a : Handler σ α) (pure a) := fun _ => ⟨rfl, rfl⟩

theorem performs_bind {first : Handler σ α} {action : Action σ α} {next : α → Handler σ β}
    {nextAction : α → Action σ β} (h : Performs first action)
    (hnext : ∀ a, Performs (next a) (nextAction a)) :
    Performs (first >>= next) (action >>= nextAction) := by
  intro session
  obtain ⟨hresult, hbackend⟩ := h session
  rw [runOn_bind, Action.runOn_bind]
  rcases hrun : first.runOn session with ⟨e | a, after⟩
  · rw [hrun] at hresult hbackend
    rcases haction : action.runOn session.backend with ⟨e' | a', after'⟩
    · rw [haction] at hresult hbackend
      cases hresult
      exact ⟨rfl, hbackend⟩
    · rw [haction] at hresult
      cases hresult
  · rw [hrun] at hresult hbackend
    rcases haction : action.runOn session.backend with ⟨e' | a', after'⟩
    · rw [haction] at hresult
      cases hresult
    · rw [haction] at hresult hbackend
      cases hresult
      obtain rfl : after.backend = after' := hbackend
      exact hnext a after

theorem performs_ite {p : Prop} [Decidable p] {first second : Handler σ α} {action : Action σ α}
    (hfirst : Performs first action) (hsecond : Performs second action) :
    Performs (if p then first else second) action := by
  split
  · exact hfirst
  · exact hsecond

theorem performs_check (result : Except Error α) :
    Performs (check result : Handler σ α) (Http.lift result) := by
  intro session
  cases result <;> exact ⟨rfl, rfl⟩

theorem performs_operate (action : Action σ α) : Performs (operate action) action := by
  intro session
  rw [runOn_operate]
  exact ⟨rfl, rfl⟩

theorem performs_say (context : Context) (level : Terminal.Level) (text : String) :
    Performs (say context level text : Handler σ Unit) (pure ()) := by
  intro session
  unfold say
  dsimp only
  split
  · exact ⟨rfl, rfl⟩
  · split <;> exact ⟨rfl, rfl⟩

end Handler

open Handler

/-- The descriptor stands in the working directory. -/
def Context.Holds (context : Context) (descriptor : Option Descriptor) : Prop :=
  Descriptor.load context.files context.files.workingDirectory = .ok descriptor

/-- A program that runs where a descriptor stands. -/
def Context.beside (descriptor : Descriptor) : Context where
  apiUrl := Http.Api.initialUrl
  files := descriptor.directory

theorem Context.holds_beside (descriptor : Descriptor) :
    (Context.beside descriptor).Holds (some descriptor) :=
  descriptor.load_directory

/-- The descriptor of the working directory is found without the backend. -/
theorem performs_localDescriptor {σ : Type} {context : Context} {descriptor : Option Descriptor}
    (hload : context.Holds descriptor) :
    Performs (localDescriptor context : Handler σ (Option Descriptor)) (pure descriptor) := by
  rw [localDescriptor, hload]
  exact performs_pure descriptor

end AppRoutes.Program
