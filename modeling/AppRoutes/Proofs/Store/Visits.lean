/-
Watching a store.

The watched store does what the store does and notes every call that reaches it: what was
asked, which routes were kept as submitted and how the call ended.  A call counts once and
submits no route but its own, and if it fails, its error is one that an answer could stand
for.
-/
import AppRoutes.Proofs.Client
import AppRoutes.Proofs.Directory
import AppRoutes.Proofs.Error
import AppRoutes.Proofs.Store.Operations

namespace AppRoutes

open AppRoutes.Action

namespace Backend

def Call.operation : Call → Operation
  | .fetch .. => .fetch
  | .replace .. => .replace
  | .create .. => .create
  | .list .. => .list
  | .delete .. => .delete
  | .invoke .. => .invoke

end Backend

/-- A call that has reached a store. -/
structure Visit where
  call : Backend.Call
  /-- The routes that the store has kept as submitted. -/
  submitted : List Submission
  outcome : Except Error Payload

namespace Store

section

variable {α : Type} {call : Backend.Call}

end

theorem isAnswer_ofStatus {status : Nat} {message : String} (hlow : 400 ≤ status)
    (hhigh : status ≤ 599) (hmessage : message ≠ "") : (Error.ofStatus status message).IsAnswer :=
  ⟨status, message, rfl, hlow, hhigh, hmessage⟩

theorem isAnswer_appNotFound : Directory.appNotFound.IsAnswer :=
  isAnswer_ofStatus (by decide) (by decide) (by decide)

theorem isAnswer_routeNotFound : Directory.routeNotFound.IsAnswer :=
  isAnswer_ofStatus (by decide) (by decide) (by decide)

theorem isAnswer_missing (directory : Directory) (app : String) :
    (directory.missing app).IsAnswer := by
  unfold Directory.missing
  split
  · exact isAnswer_routeNotFound
  · exact isAnswer_appNotFound

theorem isAnswer_of_create {directory : Directory} {app : String} {route : Route} {e : Error}
    (h : (directory.create app route).1 = .error e) : e.IsAnswer := by
  rw [Directory.create_eq] at h
  split at h
  · rw [← Except.error.inj h]
    exact isAnswer_ofStatus (by decide) (by decide) (by decide)
  · split at h
    · rw [← Except.error.inj h]
      exact isAnswer_ofStatus (by decide) (by decide) (by decide)
    · cases h

/-- From one store to another the calls of the visits were counted and the routes that they
submitted were kept, and nothing else. -/
structure Visited (visits : List Visit) (before after : Store) : Prop where
  failures : after.failures = before.failures
  calls : after.calls = before.calls ++ visits.map (·.call.operation)
  submissions : after.submissions = before.submissions ++ visits.flatMap (·.submitted)

theorem Visited.refl (store : Store) : Visited [] store store :=
  ⟨rfl, (List.append_nil _).symm, (List.append_nil _).symm⟩

theorem Visited.trans {first second : List Visit} {before middle after : Store}
    (h : Visited first before middle) (h' : Visited second middle after) :
    Visited (first ++ second) before after where
  failures := h'.failures.trans h.failures
  calls := by rw [h'.calls, h.calls, List.map_append, List.append_assoc]
  submissions := by rw [h'.submissions, h.submissions, List.flatMap_append, List.append_assoc]

end Store
end AppRoutes
