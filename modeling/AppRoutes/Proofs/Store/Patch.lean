/-
Updates of a stored route.

An update reads a route and puts the merged one in its place.  Both steps are given here as
equations, and from them the whole update by two functions of the store: the route that an
update starts from, or the error that stops it, does not depend on the delta, and neither of
the two looks at the record of calls.  So updates in turn come to one update.
-/
import AppRoutes.Proofs.Client
import AppRoutes.Proofs.Delta.Sequence
import AppRoutes.Proofs.Directory
import AppRoutes.Proofs.Store.Operations

namespace AppRoutes
namespace Store

open AppRoutes.Action Directory
open AppRoutes.Client (merged)

/-- The store without the record of what was asked of it. -/
def withoutRecord (store : Store) : Store := { store with calls := [], submissions := [] }

@[simp]
theorem withoutRecord_called (operation : Operation) (store : Store) :
    (store.called operation).withoutRecord = store.withoutRecord := rfl

@[simp]
theorem withoutRecord_submitted (submission : Submission) (store : Store) :
    (store.submitted submission).withoutRecord = store.withoutRecord := rfl

def withDirectory (directory : Directory) (store : Store) : Store := { store with directory }

theorem withoutRecord_withDirectory (directory : Directory) (store : Store) :
    (store.withDirectory directory).withoutRecord =
      store.withoutRecord.withDirectory directory := rfl

theorem failure?_eq_of_withoutRecord {store store' : Store}
    (h : store.withoutRecord = store'.withoutRecord) (operation : Operation) :
    store.failure? operation = store'.failure? operation :=
  show store.withoutRecord.failure? operation = store'.withoutRecord.failure? operation by rw [h]

theorem directory_eq_of_withoutRecord {store store' : Store}
    (h : store.withoutRecord = store'.withoutRecord) : store.directory = store'.directory :=
  show store.withoutRecord.directory = store'.withoutRecord.directory by rw [h]

theorem surfaceOnly_missing (directory : Directory) (app : String) {allowed : List Category}
    (h : Category.notFound ∈ allowed) :
    (directory.missing app).surfaceOnly allowed = directory.missing app := by
  have hcategory : (directory.missing app).category = .notFound := by
    unfold missing
    split <;> rfl
  rw [Error.surfaceOnly, if_neg]
  simp [hcategory, h]

/-- What a client that asks for a route is told. -/
def seek (store : Store) (app path : String) : Except Error Route :=
  if path.isEmpty then .error missingPath
  else
    match store.failure? .fetch with
    | some e => .error (e.surfaceOnly [.notFound])
    | none =>
      match store.directory.route? app path with
      | some route => .ok route
      | none => .error (store.directory.missing app)

theorem seek_eq_ok {store : Store} {app path : String} {route : Route} :
    store.seek app path = .ok route ↔
      path.isEmpty = false ∧ store.failure? .fetch = none ∧
        store.directory.route? app path = some route := by
  unfold seek
  cases hpath : path.isEmpty with
  | true => simp
  | false =>
    cases store.failure? .fetch with
    | some e => simp
    | none => cases store.directory.route? app path <;> simp

theorem runOn_client_get (app path : String) (store : Store) :
    (Client.get backend app path).runOn store =
      (store.seek app path, if path.isEmpty then store else store.called .fetch) := by
  rw [Client.runOn_get, seek]
  by_cases hpath : path.isEmpty = true
  · rw [if_pos hpath, if_pos hpath, if_pos hpath]
  · rw [if_neg hpath, if_neg hpath, if_neg hpath, runOn_surfacing, runOn_fetch]
    cases store.failure? .fetch with
    | some e => rfl
    | none =>
      dsimp only
      rw [fetch_eq]
      cases store.directory.route? app path with
      | some route => rfl
      | none =>
        refine congrArg (fun e => (Except.error e, store.called .fetch)) ?_
        exact surfaceOnly_missing _ app List.mem_cons_self

/-- What an update lets through of the errors of its second step. -/
def updateErrors : List Category := [.badRequest, .notFound, .conflict]

theorem runOn_submitMerged (app path : String) (delta : Option Delta) (route : Route)
    (store : Store) :
    (Client.submitMerged backend app path delta route).runOn store =
      match store.failure? .replace with
      | some e => (.error (e.surfaceOnly updateErrors), store.called .replace)
      | none =>
        let noted := (store.called .replace).submitted ⟨.replace, app, path, merged route delta⟩
        match store.directory.route? app path with
        | some _ =>
          (.ok (keep app path (merged route delta)),
            noted.withDirectory
              (store.directory.put app path (keep app path (merged route delta))))
        | none => (.error (store.directory.missing app), noted) := by
  have hpath : (merged route delta).path = "" := by cases delta <;> rfl
  rw [Client.submitMerged, runOn_bind_of_ok (runOn_announce _ store), runOn_surfacing,
    runOn_replace]
  cases store.failure? .replace with
  | some e => rfl
  | none =>
    dsimp only
    rw [runOn_change, directory_submitted, directory_called, replace_eq_of_path_eq_empty hpath]
    cases store.directory.route? app path with
    | some old => rfl
    | none =>
      refine congrArg (fun e => (Except.error e, _)) ?_
      exact surfaceOnly_missing _ app (by decide)

/-- The route that an update starts from, or the error that stops it. -/
def updatable (store : Store) (app path : String) : Except Error Route :=
  match store.seek app path with
  | .error e => .error e
  | .ok route =>
    match store.failure? .replace with
    | some e => .error (e.surfaceOnly updateErrors)
    | none => .ok route

theorem updatable_eq_ok {store : Store} {app path : String} {old : Route} :
    store.updatable app path = .ok old ↔
      store.seek app path = .ok old ∧ store.failure? .replace = none := by
  unfold updatable
  cases store.seek app path with
  | error e => simp
  | ok route => cases store.failure? .replace <;> simp

/-- The store after an update, its record apart. -/
def updated (store : Store) (app path : String) (delta : Option Delta) : Store :=
  match store.updatable app path with
  | .ok old =>
    store.withDirectory (store.directory.put app path (keep app path (merged old delta)))
  | .error _ => store

theorem withoutRecord_asked (path : String) (store : Store) :
    (if path.isEmpty then store else store.called .fetch).withoutRecord = store.withoutRecord := by
  split <;> rfl

theorem updatable_eq_of_withoutRecord {store store' : Store}
    (h : store.withoutRecord = store'.withoutRecord) (app path : String) :
    store.updatable app path = store'.updatable app path := by
  show store.withoutRecord.updatable app path = _
  rw [h]
  rfl

theorem updated_eq_of_withoutRecord {store store' : Store}
    (h : store.withoutRecord = store'.withoutRecord) (app path : String) (delta : Option Delta) :
    (store.updated app path delta).withoutRecord =
      (store'.updated app path delta).withoutRecord := by
  unfold updated
  rw [updatable_eq_of_withoutRecord h]
  cases store'.updatable app path with
  | error e => exact h
  | ok old =>
    dsimp only
    rw [withoutRecord_withDirectory, withoutRecord_withDirectory, h,
      directory_eq_of_withoutRecord h]

/-- An update answers with what it starts from, merged, and leaves the store with that. -/
theorem runOn_patch_eq (app path : String) (delta : Option Delta) (store : Store) :
    ((Client.patch backend app path delta).runOn store).1 =
        (store.updatable app path).map (fun old => keep app path (merged old delta)) ∧
      ((Client.patch backend app path delta).runOn store).2.withoutRecord =
        (store.updated app path delta).withoutRecord := by
  rw [Client.runOn_patch_get, runOn_client_get, updated, updatable]
  have hasked := withoutRecord_asked path store
  generalize (if path.isEmpty then store else store.called .fetch) = asked at hasked ⊢
  cases hseek : store.seek app path with
  | error e => exact ⟨rfl, hasked⟩
  | ok old =>
    dsimp only
    rw [runOn_submitMerged, failure?_eq_of_withoutRecord hasked,
      directory_eq_of_withoutRecord hasked, (seek_eq_ok.mp hseek).2.2]
    cases store.failure? .replace with
    | some e => exact ⟨rfl, hasked⟩
    | none =>
      dsimp only
      rw [withoutRecord_withDirectory, withoutRecord_withDirectory, withoutRecord_submitted,
        withoutRecord_called, hasked]
      exact ⟨rfl, rfl⟩

/-- A store that is not told to fail updates every route that it holds. -/
theorem runOn_patch_of_route? {app path : String} (hpath : path ≠ "") {store : Store}
    (hfailures : store.failures = []) {old : Route} (hold : store.route? app path = some old)
    (delta : Option Delta) :
    ((Client.patch backend app path delta).runOn store).1 =
        .ok (keep app path (merged old delta)) ∧
      Binds app path (some (keep app path (merged old delta))) store.directory
        ((Client.patch backend app path delta).runOn store).2.directory := by
  have hnone : ∀ operation, store.failure? operation = none := fun operation => by
    rw [failure?, hfailures]
    rfl
  have hempty : path.isEmpty = false := Bool.eq_false_iff.mpr (Client.not_isEmpty_of_ne hpath)
  have hupdatable : store.updatable app path = .ok old :=
    updatable_eq_ok.mpr ⟨seek_eq_ok.mpr ⟨hempty, hnone .fetch, hold⟩, hnone .replace⟩
  obtain ⟨hresult, hafter⟩ := runOn_patch_eq app path delta store
  rw [updated, hupdatable] at hafter
  rw [hresult, hupdatable, directory_eq_of_withoutRecord hafter]
  exact ⟨rfl, binds_put store.directory app path _⟩

/-! ## Updates in turn -/

/-- After an update the next one starts from what was kept. -/
theorem updatable_updated (app path : String) (delta : Option Delta) (store : Store) :
    (store.updated app path delta).updatable app path =
      (store.updatable app path).map (fun old => keep app path (merged old delta)) := by
  cases h : store.updatable app path with
  | error e =>
    rw [updated, h]
    exact h
  | ok old =>
    rw [updated, h]
    obtain ⟨hseek, hreplace⟩ := updatable_eq_ok.mp h
    obtain ⟨hpath, hfetch, -⟩ := seek_eq_ok.mp hseek
    have hkept := (binds_put store.directory app path (keep app path (merged old delta))).atKey
    exact updatable_eq_ok.mpr ⟨seek_eq_ok.mpr ⟨hpath, hfetch, hkept⟩, hreplace⟩

/-- Two updates in turn, where `again` on what the first one kept is `both` on what it found. -/
theorem updated_updated {app path : String} {delta again both : Option Delta}
    (hmerged : ∀ old, keep app path (merged (keep app path (merged old delta)) again) =
      keep app path (merged old both)) (store : Store) :
    (store.updated app path delta).updated app path again = store.updated app path both := by
  rw [updated, updatable_updated]
  cases h : store.updatable app path with
  | error e =>
    rw [updated, updated, h]
    rfl
  | ok old =>
    rw [updated, updated, h]
    dsimp only [Except.map]
    rw [hmerged]
    exact congrArg (store.withDirectory ·) (put_put store.directory app path _ _)

/-- Two runs answer the same and leave the same store, its record apart. -/
def Alike {α : Type} (run run' : Except Error α × Store) : Prop :=
  run.1 = run'.1 ∧ run.2.withoutRecord = run'.2.withoutRecord

theorem alike_patch_patch {app path : String} {delta again both : Option Delta}
    (hmerged : ∀ old, keep app path (merged (keep app path (merged old delta)) again) =
      keep app path (merged old both)) (store : Store) :
    Alike
      ((Client.patch backend app path again).runOn
        ((Client.patch backend app path delta).runOn store).2)
      ((Client.patch backend app path both).runOn store) := by
  obtain ⟨-, hmiddle⟩ := runOn_patch_eq app path delta store
  generalize ((Client.patch backend app path delta).runOn store).2 = middle at hmiddle ⊢
  obtain ⟨hanswer, hafter⟩ := runOn_patch_eq app path again middle
  obtain ⟨hanswer', hafter'⟩ := runOn_patch_eq app path both store
  constructor
  · rw [hanswer, hanswer', updatable_eq_of_withoutRecord hmiddle, updatable_updated]
    cases store.updatable app path with
    | error e => rfl
    | ok old => exact congrArg Except.ok (hmerged old)
  · rw [hafter, hafter', updated_eq_of_withoutRecord hmiddle, updated_updated hmerged]

/-- Updates in turn come to the one update that their deltas come to, an update may be sent
again, and no delta is the empty one. -/
theorem patches_compose (app path : String) (first second : Delta) (store : Store) :
    Alike
        ((Client.patch backend app path (some second)).runOn
          ((Client.patch backend app path (some first)).runOn store).2)
        ((Client.patch backend app path (some (first.andThen second))).runOn store) ∧
      Alike
        ((Client.patch backend app path (some first)).runOn
          ((Client.patch backend app path (some first)).runOn store).2)
        ((Client.patch backend app path (some first)).runOn store) ∧
      (Client.patch backend app path none).runOn store =
        (Client.patch backend app path (some {})).runOn store :=
  ⟨alike_patch_patch (Client.keep_merged_merged app path · first second) store,
    alike_patch_patch (Client.keep_merged_self app path · first) store, rfl⟩

end Store
end AppRoutes
