/-
Runs of a store.

A run prepares a store and calls it, step by step, and every step goes into a history with
its outcome.  What a step has done to the directory can be told from its entry in the
history alone: that is its `Deed`, and `marks_perform` says that a step does to the directory
what its deed says and nothing else.  Facts about runs follow from that by `run_induction`.
-/
import AppRoutes.Proofs.Store.Atomicity

namespace AppRoutes

inductive Deed where
  | registers (app : String)
  /-- A route comes under a path, and its application is registered. -/
  | adds (app path : String) (route : Route)
  /-- A route comes in the place of another one. -/
  | changes (app path : String) (route : Route)
  | removes (app path : String)
  | nothing

namespace Deed

/-- What a deed leaves under a key, unless it does not concern the key. -/
def settles? (deed : Deed) (app path : String) : Option (Option Route) :=
  match deed with
  | .adds a p route | .changes a p route =>
    if (a, p) = (app, path) then some (some route) else none
  | .removes a p => if (a, p) = (app, path) then some none else none
  | .registers _ | .nothing => none

/-- The deed makes an application known. -/
def Names (deed : Deed) (app : String) : Prop :=
  match deed with
  | .registers a | .adds a _ _ => a = app
  | .changes .. | .removes .. | .nothing => False

/-- The deed is the whole difference between two directories, and what it puts there carries
the key that it is put under. -/
structure Marks (deed : Deed) (before after : Directory) : Prop where
  registered : ∀ a,
    (after.routes? a).isSome = true ↔ (before.routes? a).isSome = true ∨ deed.Names a
  route : ∀ a p, after.route? a p = (deed.settles? a p).getD (before.route? a p)
  keyed : ∀ a p route, deed.settles? a p = some (some route) →
    route.appName = a ∧ route.path = p

end Deed

open Directory Deed

theorem marks_nothing (d : Directory) : Marks .nothing d d where
  registered a := by simp [Names]
  route a p := rfl
  keyed a p route h := by cases h

theorem marks_of_binds {deed : Deed} {app path : String} {kept : Option Route}
    {before after : Directory} (h : Binds app path kept before after)
    (hsettles : ∀ a p, deed.settles? a p = if (app, path) = (a, p) then some kept else none)
    (hnames : ∀ a, (before.routes? a).isSome = true ∨ a = app ↔
      (before.routes? a).isSome = true ∨ deed.Names a)
    (hkeyed : ∀ route, kept = some route → route.appName = app ∧ route.path = path) :
    Marks deed before after where
  registered a := (h.registered a).trans (hnames a)
  route a p := by
    rw [hsettles]
    by_cases hkey : (app, path) = (a, p)
    · obtain ⟨rfl, rfl⟩ := Prod.mk.inj hkey
      rw [if_pos rfl, h.atKey]
      rfl
    · rw [if_neg hkey, h.elsewhere a p (Ne.symm hkey)]
      rfl
  keyed a p route hroute := by
    rw [hsettles] at hroute
    split at hroute
    · rename_i hkey
      obtain ⟨rfl, rfl⟩ := Prod.mk.inj hkey
      exact hkeyed route (Option.some.inj hroute)
    · cases hroute

theorem marks_adds {app path : String} {route : Route} {before after : Directory}
    (h : Binds app path (some route) before after) (happ : route.appName = app)
    (hpath : route.path = path) : Marks (.adds app path route) before after := by
  refine marks_of_binds h (fun _ _ => rfl) (fun a => ?_) ?_
  · exact or_congr_right eq_comm
  · rintro _ ⟨⟩
    exact ⟨happ, hpath⟩

theorem marks_changes {app path : String} {old route : Route} {before after : Directory}
    (h : Binds app path (some route) before after) (hold : before.route? app path = some old)
    (happ : route.appName = app) (hpath : route.path = path) :
    Marks (.changes app path route) before after := by
  refine marks_of_binds h (fun _ _ => rfl) (fun a => ?_) ?_
  · exact (isSome_routes?_or_eq_iff hold a).trans (or_iff_left id).symm
  · rintro _ ⟨⟩
    exact ⟨happ, hpath⟩

theorem marks_removes {app path : String} {before after : Directory}
    (h : Removes app path before after) : Marks (.removes app path) before after := by
  obtain ⟨⟨old, hold⟩, hbinds⟩ := h
  refine marks_of_binds hbinds (fun _ _ => rfl) (fun a => ?_) nofun
  exact (isSome_routes?_or_eq_iff hold a).trans (or_iff_left id).symm

theorem marks_registers (d : Directory) (app : String) :
    Marks (.registers app) d (d.addApp app) where
  registered a := by
    rw [addApp, routes?_setRoutes]
    by_cases ha : app = a
    · simp [ha, Names]
    · simp [ha, Names]
  route a p := by
    rw [addApp, route?_eq_bind, routes?_setRoutes]
    by_cases ha : app = a
    · subst ha
      rw [if_pos rfl, Option.bind_some, get?_routesOf]
      rfl
    · rw [if_neg ha, ← route?_eq_bind]
      rfl
  keyed a p route h := by cases h

namespace Store

open AppRoutes.Action

/-- What a call has done that answers. -/
def Call.deed : Call → Payload → Deed
  | .direct (.create app submitted), .route kept => .adds app submitted.path kept
  | .client (.create app path _), .route kept => .adds app path kept
  | .direct (.replace app path _), .route kept => .changes app path kept
  | .client (.patch app path _), .route kept => .changes app path kept
  | .direct (.delete app path), _ => .removes app path
  | .client (.delete app path), _ => .removes app path
  | _, _ => .nothing

theorem does_nothing {call : Call} (h : ∀ before after, call.Effect before after → after = before) :
    Does call.run (fun _ => Marks .nothing) := by
  refine (does_call call).weaken (fun _ before d heffect => ?_)
  rw [h before d heffect]
  exact marks_nothing before

theorem does_call_deed (call : Call) :
    Does call.run (fun answer => Marks (call.deed answer)) := by
  cases call with
  | direct call =>
    cases call with
    | fetch | list | invoke => exact does_nothing (fun _ _ h => h)
    | delete app path =>
      exact (does_call (.direct (.delete app path))).weaken (fun _ _ _ h => marks_removes h)
    | replace app path route =>
      refine does_map _ ((does_replace app path route).weaken ?_)
      rintro _ before after ⟨rfl, old, hold, hbinds⟩
      exact marks_changes hbinds hold rfl rfl
    | create app route =>
      refine does_map _ ((does_create app route).weaken ?_)
      rintro _ before after ⟨rfl, -, hbinds⟩
      exact marks_adds hbinds rfl rfl
  | client call =>
    cases call with
    | get | list | call => exact does_nothing (fun _ _ h => h)
    | delete app path =>
      exact (does_call (.client (.delete app path))).weaken (fun _ _ _ h => marks_removes h)
    | create app path delta =>
      refine does_map _ ((does_client_create app path delta).weaken ?_)
      rintro _ before after ⟨rfl, -, hbinds⟩
      exact marks_adds hbinds rfl rfl
    | patch app path delta =>
      refine does_map _ ((does_client_patch app path delta).weaken ?_)
      rintro _ before after ⟨old, hold, rfl, hbinds⟩
      exact marks_changes hbinds hold rfl rfl

/-- A step of a run: a store is prepared or called. -/
inductive Step where
  | addApp (app : String)
  | addRoute (app : String) (route : Route)
  | fail (operation : Operation) (status : Nat) (message : String)
  | addResponse (app path : String) (body : ByteArray)
  | call (request : Call)

def Step.perform : Step → Store → Except Error Payload × Store
  | .addApp app, store => (.ok .nothing, store.addApp app)
  | .addRoute app route, store => (.ok .nothing, store.addRoute app route)
  | .fail operation status message, store => (.ok .nothing, store.fail operation status message)
  | .addResponse app path body, store => (.ok .nothing, store.addResponse app path body)
  | .call request, store => request.run.runOn store

/-- A step as a history tells it. -/
structure Event where
  step : Step
  outcome : Except Error Payload

def Event.deed : Event → Deed
  | ⟨.addApp app, _⟩ => .registers app
  | ⟨.addRoute app route, _⟩ => .adds app route.path { route with appName := app }
  | ⟨.call request, .ok answer⟩ => request.deed answer
  | ⟨.call _, .error _⟩ | ⟨.fail .., _⟩ | ⟨.addResponse .., _⟩ => .nothing

/-- The entry of a step that is performed on a store. -/
def eventOf (step : Step) (store : Store) : Event := ⟨step, (step.perform store).1⟩

theorem marks_perform (step : Step) (store : Store) :
    Marks (eventOf step store).deed store.directory (step.perform store).2.directory := by
  cases step with
  | addApp app => exact marks_registers store.directory app
  | addRoute app route =>
    exact marks_adds (binds_put store.directory app route.path _) rfl rfl
  | fail operation status message => exact marks_nothing store.directory
  | addResponse app path body => exact marks_nothing store.directory
  | call request =>
    obtain ⟨herror, hok⟩ := does_call_deed request store
    show Marks (Event.deed ⟨.call request, (request.run.runOn store).1⟩) _ _
    cases houtcome : (request.run.runOn store).1 with
    | error e =>
      rw [show (Step.perform (.call request) store).2.directory = store.directory from
        herror e houtcome]
      exact marks_nothing store.directory
    | ok answer => exact hok answer houtcome

def after (store : Store) : List Step → Store
  | [] => store
  | step :: rest => ((step.perform store).2).after rest

def history (store : Store) : List Step → List Event
  | [] => []
  | step :: rest => eventOf step store :: ((step.perform store).2).history rest

/-- What holds of a past and a store, and goes on to hold with every further step, holds at
the end of a run. -/
theorem run_induction {P : List Event → Store → Prop}
    (hstep : ∀ past store step, P past store →
      P (past ++ [eventOf step store]) (step.perform store).2) (steps : List Step) :
    ∀ past store, P past store → P (past ++ store.history steps) (store.after steps) := by
  induction steps with
  | nil =>
    intro past store h
    rw [history, List.append_nil]
    exact h
  | cons step rest ih =>
    intro past store h
    rw [history, ← List.singleton_append, ← List.append_assoc]
    exact ih _ _ (hstep past store step h)

end Store
end AppRoutes
