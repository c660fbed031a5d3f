/-
What the operations of a directory change.

A directory is seen through two questions: which applications are registered, and which
route is kept under an application and a path.  `Binds` says that one answer of the second
kind is new and every other answer is the old one; each operation that succeeds comes to
that, and each one that fails leaves the directory as it was.
-/
import AppRoutes.Directory

namespace AppRoutes
namespace Directory

theorem routes?_setRoutes (d : Directory) (app : String) (routes : RouteMap) (a : String) :
    (d.setRoutes app routes).routes? a = if app = a then some routes else d.routes? a :=
  d.apps.get?_insert app routes a

theorem route?_eq_bind (d : Directory) (app path : String) :
    d.route? app path = (d.routes? app).bind (fun routes => routes.get? path) := rfl

theorem get?_routesOf (d : Directory) (app path : String) :
    (d.routesOf app).get? path = d.route? app path := by
  rw [routesOf, route?_eq_bind]
  cases d.routes? app <;> rfl

theorem routesOf_of_routes? {d : Directory} {app : String} {routes : RouteMap}
    (h : d.routes? app = some routes) : d.routesOf app = routes := by
  rw [routesOf, h]
  rfl

theorem ext_routes? {d d' : Directory} (h : ∀ a, d.routes? a = d'.routes? a) : d = d' :=
  congrArg Directory.mk (SortedMap.ext_get? h)

theorem isSome_routes?_of_route? {d : Directory} {app path : String} {route : Route}
    (h : d.route? app path = some route) : (d.routes? app).isSome = true := by
  rw [route?_eq_bind] at h
  cases happ : d.routes? app with
  | none =>
    rw [happ] at h
    cases h
  | some routes => rfl

theorem isSome_routes?_or_eq_iff {d : Directory} {app path : String} {route : Route}
    (h : d.route? app path = some route) (a : String) :
    (d.routes? a).isSome = true ∨ a = app ↔ (d.routes? a).isSome = true := by
  refine ⟨fun hor => hor.elim id ?_, Or.inl⟩
  rintro rfl
  exact isSome_routes?_of_route? h

/-- Under one path of an application `after` has `kept`, for which the application is
registered, and it is `before` everywhere else. -/
structure Binds (app path : String) (kept : Option Route) (before after : Directory) : Prop where
  atKey : after.route? app path = kept
  elsewhere : ∀ a p, (a, p) ≠ (app, path) → after.route? a p = before.route? a p
  registered : ∀ a, (after.routes? a).isSome = true ↔ (before.routes? a).isSome = true ∨ a = app

/-- A route under a path that was free, and no other change. -/
def Adds (app path : String) (kept : Route) (before after : Directory) : Prop :=
  before.route? app path = none ∧ Binds app path (some kept) before after

/-- The route under a path changes, and nothing else does. -/
def Changes (app path : String) (change : Route → Route) (before after : Directory) : Prop :=
  ∃ old, before.route? app path = some old ∧ Binds app path (some (change old)) before after

/-- The route under a path goes, and nothing else changes. -/
def Removes (app path : String) (before after : Directory) : Prop :=
  (∃ old, before.route? app path = some old) ∧ Binds app path none before after

theorem binds_setRoutes {d : Directory} {app path : String} {routes : RouteMap}
    {kept : Option Route}
    (h : ∀ p, routes.get? p = if path = p then kept else (d.routesOf app).get? p) :
    Binds app path kept d (d.setRoutes app routes) where
  atKey := by rw [route?_eq_bind, routes?_setRoutes, if_pos rfl, Option.bind_some, h, if_pos rfl]
  elsewhere a p hne := by
    rw [route?_eq_bind, routes?_setRoutes]
    by_cases ha : app = a
    · subst ha
      have hp : path ≠ p := fun e => hne (e ▸ rfl)
      rw [if_pos rfl, Option.bind_some, h, if_neg hp, get?_routesOf]
    · rw [if_neg ha, ← route?_eq_bind]
  registered a := by
    rw [routes?_setRoutes]
    by_cases ha : app = a
    · simp [ha]
    · simp [ha, Ne.symm ha]

/-- The directory with a route under a path, whatever stands there. -/
def put (d : Directory) (app path : String) (route : Route) : Directory :=
  d.setRoutes app ((d.routesOf app).insert path route)

theorem binds_put (d : Directory) (app path : String) (route : Route) :
    Binds app path (some route) d (d.put app path route) :=
  binds_setRoutes (fun p => SortedMap.get?_insert _ path route p)

def free (d : Directory) (app path : String) : Directory :=
  d.setRoutes app ((d.routesOf app).erase path)

theorem binds_free (d : Directory) (app path : String) :
    Binds app path none d (d.free app path) :=
  binds_setRoutes (fun p => SortedMap.get?_erase _ path p)

/-- Why there is no route to be found in an application. -/
def missing (d : Directory) (app : String) : Error :=
  if (d.routes? app).isSome then routeNotFound else appNotFound

theorem fetch_eq (d : Directory) (app path : String) :
    d.fetch app path =
      match d.route? app path with
      | some route => .ok route
      | none => .error (d.missing app) := by
  rw [route?_eq_bind, fetch, missing]
  cases d.routes? app with
  | none => rfl
  | some routes => cases h : routes.get? path <;> simp [h]

theorem replace_eq (d : Directory) (app path : String) (route : Route) :
    d.replace app path route =
      if !route.path.isEmpty && route.path ≠ path then (.error pathIsImmutable, d)
      else
        match d.route? app path with
        | some _ => (.ok (keep app path route), d.put app path (keep app path route))
        | none => (.error (d.missing app), d) := by
  rw [replace, route?_eq_bind, missing, put]
  refine congrArg (ite _ _) ?_
  cases happ : d.routes? app with
  | none => rfl
  | some routes =>
    rw [routesOf_of_routes? happ]
    cases hroute : routes.get? path <;> simp [SortedMap.contains, hroute]

/-- A route that names no path of its own fits under any. -/
theorem replace_eq_of_path_eq_empty {route : Route} (hpath : route.path = "") (d : Directory)
    (app path : String) :
    d.replace app path route =
      match d.route? app path with
      | some _ => (.ok (keep app path route), d.put app path (keep app path route))
      | none => (.error (d.missing app), d) := by
  rw [replace_eq, if_neg]
  simp [hpath]

theorem routesOf_addApp (d : Directory) (app : String) :
    (d.addApp app).routesOf app = d.routesOf app := by
  rw [routesOf, addApp, routes?_setRoutes, if_pos rfl, Option.getD_some]

/-- To register an application again changes nothing. -/
theorem addApp_of_registered {d : Directory} {app : String}
    (h : (d.routes? app).isSome = true) : d.addApp app = d := by
  obtain ⟨routes, hroutes⟩ := Option.isSome_iff_exists.mp h
  refine ext_routes? fun a => ?_
  rw [addApp, routes?_setRoutes, routesOf_of_routes? hroutes]
  by_cases ha : app = a
  · rw [if_pos ha, ← ha, hroutes]
  · rw [if_neg ha]

theorem put_addApp (d : Directory) (app path : String) (route : Route) :
    (d.addApp app).put app path route = d.put app path route := by
  refine ext_routes? fun a => ?_
  rw [put, put, routesOf_addApp, routes?_setRoutes, routes?_setRoutes, addApp, routes?_setRoutes]
  by_cases ha : app = a
  · rw [if_pos ha, if_pos ha]
  · rw [if_neg ha, if_neg ha, if_neg ha]

/-- The application is registered before the path is found to be taken, but then it has been
registered before. -/
theorem create_eq (d : Directory) (app : String) (route : Route) :
    d.create app route =
      if route.path.isEmpty then (.error pathIsMissing, d)
      else
        match d.route? app route.path with
        | some _ => (.error routeExists, d)
        | none =>
          (.ok (keep app route.path route), d.put app route.path (keep app route.path route)) := by
  rw [create]
  refine congrArg (ite _ _) ?_
  dsimp only
  rw [SortedMap.contains, routesOf_addApp, get?_routesOf]
  cases hroute : d.route? app route.path with
  | some old => simp [addApp_of_registered (isSome_routes?_of_route? hroute)]
  | none =>
    show (_, (d.addApp app).put app route.path (keep app route.path route)) = _
    rw [put_addApp]

theorem delete_eq (d : Directory) (app path : String) :
    d.delete app path =
      match d.route? app path with
      | some _ => (.ok (), d.free app path)
      | none => (.error (d.missing app), d) := by
  rw [delete, route?_eq_bind, missing, free]
  cases happ : d.routes? app with
  | none => rfl
  | some routes =>
    rw [routesOf_of_routes? happ]
    cases hroute : routes.get? path <;> simp [SortedMap.contains, hroute]

theorem fetch_eq_ok {d : Directory} {app path : String} {route : Route} :
    d.fetch app path = .ok route ↔ d.route? app path = some route := by
  rw [fetch_eq]
  cases d.route? app path <;> simp

/-- The step leaves the directory alone if it fails, and has the effect on it if it answers. -/
def Whole {α : Type} (step : Directory → Except Error α × Directory)
    (effect : α → Directory → Directory → Prop) : Prop :=
  ∀ d, (∀ e, (step d).1 = .error e → (step d).2 = d) ∧
    ∀ a, (step d).1 = .ok a → effect a d (step d).2

theorem whole_replace (app path : String) (route : Route) :
    Whole (·.replace app path route) (fun kept before after =>
      kept = keep app path route ∧
        Changes app path (fun _ => keep app path route) before after) := by
  intro d
  dsimp only
  rw [replace_eq]
  split
  · exact ⟨fun _ _ => rfl, nofun⟩
  · cases hroute : d.route? app path with
    | none => exact ⟨fun _ _ => rfl, nofun⟩
    | some old =>
      refine ⟨nofun, fun kept hkept => ⟨(Except.ok.inj hkept).symm, old, hroute, ?_⟩⟩
      exact binds_put d app path _

theorem whole_create (app : String) (route : Route) :
    Whole (·.create app route) (fun kept before after =>
      kept = keep app route.path route ∧
        Adds app route.path (keep app route.path route) before after) := by
  intro d
  dsimp only
  rw [create_eq]
  split
  · exact ⟨fun _ _ => rfl, nofun⟩
  · cases hroute : d.route? app route.path with
    | some old => exact ⟨fun _ _ => rfl, nofun⟩
    | none =>
      refine ⟨nofun, fun kept hkept => ⟨(Except.ok.inj hkept).symm, hroute, ?_⟩⟩
      exact binds_put d app route.path _

theorem whole_delete (app path : String) :
    Whole (·.delete app path) (fun _ => Removes app path) := by
  intro d
  dsimp only
  rw [delete_eq]
  cases hroute : d.route? app path with
  | none => exact ⟨fun _ _ => rfl, nofun⟩
  | some old => exact ⟨nofun, fun _ _ => ⟨⟨old, hroute⟩, binds_free d app path⟩⟩

/-! ## Equal directories -/

theorem ext_route? {d d' : Directory} (happs : ∀ a, (d.routes? a).isSome = (d'.routes? a).isSome)
    (hroutes : ∀ a p, d.route? a p = d'.route? a p) : d = d' := by
  cases d with
  | mk apps =>
  cases d' with
  | mk apps' =>
  refine congrArg Directory.mk (SortedMap.ext_get? (fun a => ?_))
  have happ : (apps.get? a).isSome = (apps'.get? a).isSome := happs a
  have hroute : ∀ p, (apps.get? a).bind (·.get? p) = (apps'.get? a).bind (·.get? p) := hroutes a
  cases h : apps.get? a with
  | none =>
    rw [h] at happ
    exact (Option.not_isSome_iff_eq_none.mp (by rw [← happ]; decide)).symm
  | some routes =>
    rw [h] at happ hroute
    obtain ⟨routes', h'⟩ := Option.isSome_iff_exists.mp happ.symm
    rw [h'] at hroute ⊢
    exact congrArg some (SortedMap.ext_get? hroute)

theorem Binds.unique {app path : String} {kept : Option Route} {before after after' : Directory}
    (h : Binds app path kept before after) (h' : Binds app path kept before after') :
    after = after' := by
  refine ext_route? (fun a => ?_) (fun a p => ?_)
  · rw [Bool.eq_iff_iff, h.registered a, h'.registered a]
  · by_cases hkey : (a, p) = (app, path)
    · obtain ⟨rfl, rfl⟩ := Prod.mk.inj hkey
      rw [h.atKey, h'.atKey]
    · rw [h.elsewhere a p hkey, h'.elsewhere a p hkey]

/-- Of two changes of the same route in turn, the second is what is left. -/
theorem Binds.trans {app path : String} {first second : Option Route}
    {before middle after : Directory} (h : Binds app path first before middle)
    (h' : Binds app path second middle after) : Binds app path second before after where
  atKey := h'.atKey
  elsewhere a p hne := (h'.elsewhere a p hne).trans (h.elsewhere a p hne)
  registered a := by rw [h'.registered a, h.registered a, or_assoc, or_self]

theorem put_put (d : Directory) (app path : String) (first second : Route) :
    (d.put app path first).put app path second = d.put app path second :=
  ((binds_put d app path first).trans (binds_put _ app path second)).unique
    (binds_put d app path second)

end Directory
end AppRoutes
