/-
What a store has on record once a client has submitted a route.

A new route reaches the store in one call, and an update starts with a question for the old
one.  Unless the call itself is told to fail, a new route is kept as it was submitted, whether
or not it becomes part of the directory.  No error of a store blames the arguments.
-/
import AppRoutes.Proofs.Error
import AppRoutes.Proofs.Store.Patch
import AppRoutes.Proofs.Store.Visits

namespace AppRoutes
namespace Store

open AppRoutes.Action

theorem category_of_failure? {store : Store} {operation : Operation} {e : Error}
    (h : store.failure? operation = some e) : e.category ≠ .validation := by
  obtain ⟨failure, -, rfl⟩ := Option.map_eq_some_iff.mp h
  exact Error.category_ofStatus_ne_validation _ _

theorem blameless_create (app : String) (route : Route) (store : Store) :
    Blameless ((backend.create app route).runOn store).1 := by
  rw [runOn_create]
  cases hfailure : store.failure? .create with
  | some e => exact blameless_error (category_of_failure? hfailure)
  | none =>
    dsimp only
    rw [runOn_change]
    exact fun e he => (isAnswer_of_create he).category_ne_validation

/-- Once there is a path to ask for, no question is blamed on it. -/
theorem blameless_seek {path : String} (hpath : path ≠ "") (app : String) (store : Store) :
    Blameless (store.seek app path) := by
  rw [seek, if_neg (Client.not_isEmpty_of_ne hpath)]
  cases hfailure : store.failure? .fetch with
  | some e =>
    exact blameless_error
      (Error.category_surfaceOnly_ne_validation (category_of_failure? hfailure) _)
  | none =>
    cases store.directory.route? app path with
    | some route => exact blameless_ok route
    | none => exact blameless_error (isAnswer_missing _ app).category_ne_validation

theorem blameless_patch {path : String} (hpath : path ≠ "") (app : String) (delta : Option Delta)
    (store : Store) : Blameless ((Client.patch backend app path delta).runOn store).1 := by
  rw [(runOn_patch_eq app path delta store).1]
  refine blameless_map ?_ _
  have hseek := blameless_seek hpath app store
  rw [updatable]
  cases hfound : store.seek app path with
  | error e => exact blameless_error (hseek e hfound)
  | ok route =>
    cases hfailure : store.failure? .replace with
    | none => exact blameless_ok route
    | some e =>
      exact blameless_error
        (Error.category_surfaceOnly_ne_validation (category_of_failure? hfailure) _)

theorem calls_create (app : String) (route : Route) (store : Store) :
    ((backend.create app route).runOn store).2.calls = store.calls ++ [.create] := by
  rw [runOn_create]
  cases store.failure? .create with
  | some e => rfl
  | none =>
    dsimp only
    rw [runOn_change]
    rfl

theorem submissions_create (app : String) (route : Route) (store : Store) :
    ((backend.create app route).runOn store).2.submissions =
      store.submissions ++
        if (store.failure? .create).isSome then [] else [⟨.create, app, "", route⟩] := by
  rw [runOn_create]
  cases store.failure? .create with
  | some e => exact (List.append_nil _).symm
  | none =>
    dsimp only
    rw [runOn_change]
    rfl

theorem runOn_submitNew (app path : String) (delta : Delta) (store : Store) :
    (Client.submitNew backend app path delta).runOn store =
      (((backend.create app (Route.build path delta)).runOn store).1.mapError
          (Error.surfaceOnly [.badRequest, .conflict]),
        ((backend.create app (Route.build path delta)).runOn store).2) := by
  rw [Client.submitNew, runOn_bind_of_ok (runOn_announce _ store), runOn_surfacing]

theorem blameless_submitNew (app path : String) (delta : Delta) (store : Store) :
    Blameless ((Client.submitNew backend app path delta).runOn store).1 := by
  rw [runOn_submitNew]
  exact blameless_surfaceOnly (blameless_create app _ store) _

theorem calls_submitNew (app path : String) (delta : Delta) (store : Store) :
    ((Client.submitNew backend app path delta).runOn store).2.calls =
      store.calls ++ [.create] := by
  rw [runOn_submitNew]
  exact calls_create app _ store

theorem submissions_submitNew (app path : String) (delta : Delta) (store : Store) :
    ((Client.submitNew backend app path delta).runOn store).2.submissions =
      store.submissions ++
        if (store.failure? .create).isSome then []
        else [⟨.create, app, "", Route.build path delta⟩] := by
  rw [runOn_submitNew]
  exact submissions_create app _ store

/-- A new route that is accepted has been submitted. -/
theorem submissions_of_submitNew_ok {app path : String} {delta : Delta} {store : Store}
    {route : Route}
    (h : ((Client.submitNew backend app path delta).runOn store).1 = .ok route) :
    ((Client.submitNew backend app path delta).runOn store).2.submissions =
      store.submissions ++ [⟨.create, app, "", Route.build path delta⟩] := by
  rw [submissions_submitNew]
  cases hfailure : store.failure? .create with
  | none => rfl
  | some e =>
    rw [runOn_submitNew, runOn_create, hfailure] at h
    cases h

theorem calls_submitMerged (app path : String) (delta : Option Delta) (route : Route)
    (store : Store) :
    ((Client.submitMerged backend app path delta route).runOn store).2.calls =
      store.calls ++ [.replace] := by
  rw [runOn_submitMerged]
  cases store.failure? .replace with
  | some e => rfl
  | none =>
    dsimp only
    cases store.directory.route? app path <;> rfl

/-- An update asks first, and submits at most once after it. -/
theorem calls_patch {path : String} (hpath : path ≠ "") (app : String) (delta : Option Delta)
    (store : Store) :
    ∃ rest, ((Client.patch backend app path delta).runOn store).2.calls =
      store.calls ++ .fetch :: rest := by
  rw [Client.runOn_patch_get, runOn_client_get, if_neg (Client.not_isEmpty_of_ne hpath)]
  cases store.seek app path with
  | error e => exact ⟨[], rfl⟩
  | ok route =>
    refine ⟨[.replace], ?_⟩
    dsimp only
    rw [calls_submitMerged]
    exact List.append_assoc _ _ _

/-- An update that succeeds has submitted the route that it found, with the changes. -/
theorem submissions_of_patch_ok {app path : String} {delta : Option Delta} {store : Store}
    {kept : Route} (h : ((Client.patch backend app path delta).runOn store).1 = .ok kept) :
    ∃ remote, store.updatable app path = .ok remote ∧
      ((Client.patch backend app path delta).runOn store).2.submissions =
        store.submissions ++ [⟨.replace, app, path, Client.merged remote delta⟩] := by
  rw [(runOn_patch_eq app path delta store).1] at h
  cases hold : store.updatable app path with
  | error e =>
    rw [hold] at h
    cases h
  | ok remote =>
    refine ⟨remote, rfl, ?_⟩
    obtain ⟨hseek, hreplace⟩ := updatable_eq_ok.mp hold
    obtain ⟨hpath, -, hremote⟩ := seek_eq_ok.mp hseek
    have hasked : (if path.isEmpty then store else store.called .fetch) = store.called .fetch := by
      rw [hpath, if_neg (by decide)]
    have hfailure : (store.called .fetch).failure? .replace = none := hreplace
    have hroute : (store.called .fetch).directory.route? app path = some remote := hremote
    rw [Client.runOn_patch_get, runOn_client_get, hseek, hasked]
    dsimp only
    rw [runOn_submitMerged, hfailure, hroute]
    rfl

end Store
end AppRoutes
