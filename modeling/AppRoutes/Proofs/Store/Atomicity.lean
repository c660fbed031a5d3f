/-
A call of a store does all of its work or none.

`Does` says of an operation on stores that its failures leave the directory alone and what
its successes do to it.  It is proved for each operation of the backend and carried through
the parts of a client's operation; the one part that could leave half a change behind, a
second step after a first, is `does_bind`, which asks that the first step changes nothing.
-/
import AppRoutes.Proofs.Client
import AppRoutes.Proofs.Directory
import AppRoutes.Proofs.Store.Operations

namespace AppRoutes
namespace Store

open AppRoutes.Action Directory

/-- The operation leaves the directory alone if it fails, and has the effect on it if it
answers. -/
def Does {α : Type} (action : Action Store α) (effect : α → Directory → Directory → Prop) :
    Prop :=
  ∀ store : Store,
    (∀ e, (action.runOn store).1 = .error e →
      (action.runOn store).2.directory = store.directory) ∧
    ∀ a, (action.runOn store).1 = .ok a →
      effect a store.directory (action.runOn store).2.directory

section

variable {α β : Type} {effect : α → Directory → Directory → Prop}

theorem Does.weaken {action : Action Store α} (h : Does action effect)
    {effect' : α → Directory → Directory → Prop}
    (himp : ∀ a before after, effect a before after → effect' a before after) :
    Does action effect' := fun store =>
  ⟨(h store).1, fun a ha => himp a _ _ ((h store).2 a ha)⟩

/-- What is done to an outcome afterwards does not change the effect, as long as failures stay
failures. -/
theorem does_of_runOn {action : Action Store β} {action' : Action Store α} (f : β → α)
    {finish : Except Error β → Except Error α}
    (hrun : ∀ store, action'.runOn store = (finish (action.runOn store).1, (action.runOn store).2))
    (hok : ∀ b, finish (.ok b) = .ok (f b)) (herror : ∀ e, ∃ e', finish (.error e) = .error e')
    (h : Does action (fun b => effect (f b))) : Does action' effect := by
  intro store
  rw [hrun]
  obtain ⟨hfails, hworks⟩ := h store
  cases hresult : (action.runOn store).1 with
  | error e =>
    obtain ⟨e', he'⟩ := herror e
    rw [he']
    exact ⟨fun _ _ => hfails e hresult, nofun⟩
  | ok b =>
    rw [hok]
    refine ⟨nofun, fun a ha => ?_⟩
    rw [← Except.ok.inj ha]
    exact hworks b hresult

theorem does_map (f : β → α) {action : Action Store β}
    (h : Does action (fun b => effect (f b))) : Does (f <$> action) effect :=
  does_of_runOn f (runOn_map f action) (fun _ => rfl) (fun e => ⟨e, rfl⟩) h

theorem does_surfacing (allowed : List Category) {action : Action Store α}
    (h : Does action effect) : Does (action.surfacing allowed) effect :=
  does_of_runOn id (runOn_surfacing allowed action) (fun _ => rfl)
    (fun e => ⟨e.surfaceOnly allowed, rfl⟩) h

/-- A check that fails does so before the directory is reached. -/
theorem does_requirePath_bind (path : String) {next : Action Store α} (h : Does next effect) :
    Does (do Client.requirePath path; next) effect := by
  intro store
  rw [Client.runOn_requirePath_bind]
  split
  · exact ⟨fun _ _ => rfl, nofun⟩
  · exact h store

theorem does_requireImage_bind (delta : Delta) {next : Action Store α} (h : Does next effect) :
    Does (do Client.requireImage delta; next) effect := by
  intro store
  rw [Client.runOn_requireImage_bind]
  split
  · exact ⟨fun _ _ => rfl, nofun⟩
  · exact h store

theorem does_enter_bind (operation : Operation) {next : Action Store α} (h : Does next effect) :
    Does (do enter operation; next) effect := by
  intro store
  rw [runOn_enter_bind]
  split
  · exact ⟨fun _ _ => rfl, nofun⟩
  · exact h (store.called operation)

theorem does_record_bind (operation : Operation) (app path : String) (route : Route)
    {next : Action Store α} (h : Does next effect) :
    Does (do record operation app path route; next) effect := fun store =>
  h (store.submitted ⟨operation, app, path, route⟩)

/-- The second step finds the directory as the first step found it, so its failure leaves
nothing of either behind. -/
theorem does_bind {found : α → Directory → Prop} {first : Action Store α}
    {next : α → Action Store β} {effect' : α → β → Directory → Directory → Prop}
    (hfirst : Does first (fun a before after => found a before ∧ after = before))
    (hnext : ∀ a, Does (next a) (effect' a)) :
    Does (first >>= next)
      (fun b before after => ∃ a, found a before ∧ effect' a b before after) := by
  intro store
  obtain ⟨herror, hok⟩ := hfirst store
  rw [runOn_bind]
  rcases hrun : first.runOn store with ⟨e | a, middle⟩
  · rw [hrun] at herror
    exact ⟨fun _ _ => herror e rfl, nofun⟩
  · rw [hrun] at hok
    obtain ⟨hfound, hmiddle⟩ := hok a rfl
    obtain ⟨herror', hok'⟩ := hnext a middle
    rw [hmiddle] at herror' hok'
    exact ⟨herror', fun b hb => ⟨a, hfound, hok' b hb⟩⟩

theorem does_look (view : Directory → Except Error α) :
    Does (look view) (fun a before after => view before = .ok a ∧ after = before) := by
  intro store
  rw [runOn_look]
  exact ⟨fun _ _ => rfl, fun _ ha => ⟨ha, rfl⟩⟩

theorem does_change {step : Directory → Except Error α × Directory} (h : Whole step effect) :
    Does (change step) effect := by
  intro store
  rw [runOn_change]
  exact h store.directory

end

theorem does_fetch (app path : String) :
    Does (backend.fetch app path)
      (fun route before after => before.route? app path = some route ∧ after = before) :=
  (does_enter_bind .fetch (does_look (·.fetch app path))).weaken
    (fun _ _ _ h => ⟨fetch_eq_ok.mp h.1, h.2⟩)

theorem does_replace (app path : String) (route : Route) :
    Does (backend.replace app path route) (fun kept before after =>
      kept = keep app path route ∧ Changes app path (fun _ => keep app path route) before after) :=
  does_enter_bind .replace
    (does_record_bind .replace app path route (does_change (whole_replace app path route)))

theorem does_create (app : String) (route : Route) :
    Does (backend.create app route) (fun kept before after =>
      kept = keep app route.path route ∧
        Adds app route.path (keep app route.path route) before after) :=
  does_enter_bind .create
    (does_record_bind .create app "" route (does_change (whole_create app route)))

theorem does_list (app : String) :
    Does (backend.list app)
      (fun routes before after => before.list app = .ok routes ∧ after = before) :=
  does_enter_bind .list (does_look (·.list app))

theorem does_delete (app path : String) :
    Does (backend.delete app path) (fun _ => Removes app path) :=
  does_enter_bind .delete (does_change (whole_delete app path))

theorem does_invoke (app path : String) (invocation : Invocation) :
    Does (backend.invoke app path invocation) (fun _ before after => after = before) :=
  does_enter_bind .invoke (fun _ => ⟨fun _ _ => rfl, fun _ _ => rfl⟩)

theorem does_client_create (app path : String) (delta : Delta) :
    Does (Client.create backend app path delta) (fun kept before after =>
      kept = { Route.build path delta with appName := app } ∧ Adds app path kept before after) :=
  does_requirePath_bind path <| does_requireImage_bind delta <|
    (does_surfacing _ (does_create app (Route.build path delta))).weaken
      (fun _ _ _ h => ⟨h.1, h.1 ▸ h.2⟩)

theorem does_client_patch (app path : String) (delta : Option Delta) :
    Does (Client.patch backend app path delta) (fun kept before after =>
      ∃ old, before.route? app path = some old ∧
        kept = { Client.merged old delta with appName := app, path } ∧
        Binds app path (some kept) before after) := by
  refine does_requirePath_bind path ((does_bind (does_surfacing _ (does_fetch app path))
    (fun old => does_surfacing _ (does_replace app path (Client.merged old delta)))).weaken ?_)
  rintro kept before after ⟨old, hold, hkept, _, _, hbinds⟩
  exact ⟨old, hold, hkept, hkept ▸ hbinds⟩

theorem does_client_delete (app path : String) :
    Does (Client.delete backend app path) (fun _ => Removes app path) :=
  does_requirePath_bind path (does_surfacing _ (does_delete app path))

theorem does_client_get (app path : String) :
    Does (Client.get backend app path)
      (fun route before after => before.route? app path = some route ∧ after = before) :=
  does_requirePath_bind path (does_surfacing _ (does_fetch app path))

theorem does_client_list (app : String) :
    Does (Client.list backend app)
      (fun routes before after => before.list app = .ok routes ∧ after = before) :=
  does_surfacing _ (does_list app)

theorem does_client_call (app path : String) (invocation : Invocation) :
    Does (Client.call backend app path invocation) (fun _ before after => after = before) :=
  does_requirePath_bind path (does_surfacing _ (does_invoke app path invocation))

/-! ## Calls -/

/-- A call of a store, directly or through a client. -/
inductive Call where
  | direct (call : Backend.Call)
  | client (call : Client.Call)

def Call.run : Call → Action Store Payload
  | .direct call => call.run backend
  | .client call => call.run backend

/-- What a call that succeeds does to the directory. -/
def Call.Effect : Call → Directory → Directory → Prop
  | .direct (.fetch ..) | .direct (.list ..) | .direct (.invoke ..) => fun before after =>
    after = before
  | .client (.get ..) | .client (.list ..) | .client (.call ..) => fun before after =>
    after = before
  | .direct (.replace app path route) => Changes app path (fun _ => keep app path route)
  | .direct (.create app route) => Adds app route.path { route with appName := app }
  | .direct (.delete app path) => Removes app path
  | .client (.create app path delta) =>
    Adds app path { Route.build path delta with appName := app }
  | .client (.patch app path delta) =>
    Changes app path (fun old => { Client.merged old delta with appName := app, path })
  | .client (.delete app path) => Removes app path

theorem does_call (call : Call) : Does call.run (fun _ => call.Effect) := by
  cases call with
  | direct call =>
    cases call with
    | fetch app path => exact does_map _ ((does_fetch app path).weaken (fun _ _ _ h => h.2))
    | replace app path route =>
      exact does_map _ ((does_replace app path route).weaken (fun _ _ _ h => h.2))
    | create app route =>
      exact does_map _ ((does_create app route).weaken (fun _ _ _ h => h.2))
    | list app => exact does_map _ ((does_list app).weaken (fun _ _ _ h => h.2))
    | delete app path => exact does_map _ (does_delete app path)
    | invoke app path invocation => exact does_map _ (does_invoke app path invocation)
  | client call =>
    cases call with
    | create app path delta =>
      refine does_map _ ((does_client_create app path delta).weaken ?_)
      rintro _ before after ⟨rfl, hadds⟩
      exact hadds
    | patch app path delta =>
      refine does_map _ ((does_client_patch app path delta).weaken ?_)
      rintro _ before after ⟨old, hold, rfl, hbinds⟩
      exact ⟨old, hold, hbinds⟩
    | delete app path => exact does_map _ (does_client_delete app path)
    | get app path => exact does_map _ ((does_client_get app path).weaken (fun _ _ _ h => h.2))
    | list app => exact does_map _ ((does_client_list app).weaken (fun _ _ _ h => h.2))
    | call app path invocation => exact does_map _ (does_client_call app path invocation)

/-- A call that fails leaves every application and route as it was, and one that succeeds
changes no more than the one route that it is about. -/
theorem call_all_or_nothing (call : Call) (store : Store) :
    (∀ e, (call.run.runOn store).1 = .error e →
      (call.run.runOn store).2.directory = store.directory) ∧
    ∀ answer, (call.run.runOn store).1 = .ok answer →
      call.Effect store.directory (call.run.runOn store).2.directory := by
  obtain ⟨herror, hok⟩ := does_call call store
  exact ⟨herror, hok⟩

end Store
end AppRoutes
