/-
What a store lists.

A route carries the application and the path that it is kept under, through every run: no
step puts a route anywhere else than where it says itself.  The entries of a map stand in
the order of their keys, so the listed routes stand in the order of their paths, and each can
be asked for by its own path.
-/
import AppRoutes.Proofs.Store.Patch
import AppRoutes.Proofs.Store.Run

namespace AppRoutes

namespace Directory

/-- Every route carries the key that it is kept under. -/
def Keyed (d : Directory) : Prop :=
  ∀ app path route, d.route? app path = some route → route.appName = app ∧ route.path = path

theorem keyed_of_marks {deed : Deed} {before after : Directory} (h : deed.Marks before after)
    (hbefore : before.Keyed) : after.Keyed := by
  intro app path route hroute
  rw [h.route] at hroute
  cases hsettles : deed.settles? app path with
  | none =>
    rw [hsettles] at hroute
    exact hbefore app path route hroute
  | some kept =>
    rw [hsettles, Option.getD_some] at hroute
    subst hroute
    exact h.keyed app path route hsettles

variable {d : Directory} {app : String} {routes : RouteMap}

theorem route?_of_mem_entries (happ : d.routes? app = some routes) {path : String} {route : Route}
    (hmem : (path, route) ∈ routes.entries) : d.route? app path = some route := by
  rw [route?_eq_bind, happ, Option.bind_some]
  exact SortedMap.mem_entries_iff.mp hmem

theorem mem_listed_iff (happ : d.routes? app = some routes) (route : Route) :
    route ∈ routes.entries.map (·.2) ↔ ∃ path, d.route? app path = some route := by
  constructor
  · intro hmem
    obtain ⟨⟨path, kept⟩, hentry, rfl⟩ := List.mem_map.mp hmem
    exact ⟨path, route?_of_mem_entries happ hentry⟩
  · rintro ⟨path, hroute⟩
    rw [route?_eq_bind, happ, Option.bind_some] at hroute
    exact List.mem_map.mpr ⟨(path, route), SortedMap.mem_entries_iff.mpr hroute, rfl⟩

theorem pairwise_listed (hkeyed : d.Keyed) (happ : d.routes? app = some routes) :
    (routes.entries.map (·.2)).Pairwise (fun a b => a.path < b.path) := by
  rw [List.pairwise_map]
  refine routes.ascending.imp_of_mem ?_
  rintro ⟨p, a⟩ ⟨q, b⟩ ha hb hlt
  have hp : a.path = p := (hkeyed app p a (route?_of_mem_entries happ ha)).2
  have hq : b.path = q := (hkeyed app q b (route?_of_mem_entries happ hb)).2
  rw [hp, hq]
  exact hlt

end Directory

namespace Store

open AppRoutes.Action Directory

theorem keyed_after (steps : List Step) : (({} : Store).after steps).directory.Keyed :=
  run_induction (P := fun _ store => store.directory.Keyed)
    (fun _ store step h => keyed_of_marks (marks_perform step store) h) steps [] {} nofun

/-- In every store that a run has made, a route carries the key that it is kept under, and a
registered application lists each of its routes once, in the order of their paths; a listed
route is what a client gets that asks for its path. -/
theorem list_shows_kept (steps : List Step) :
    let store := ({} : Store).after steps
    (∀ app path route, store.route? app path = some route →
        route.appName = app ∧ route.path = path) ∧
      ∀ app, (store.directory.routes? app).isSome = true → store.failure? .list = none →
        ∃ listed : List Route,
          ((backend.list app).runOn store).1 = .ok listed ∧
          ((Client.list backend app).runOn store).1 = .ok listed ∧
          (∀ route, route ∈ listed ↔ ∃ path, store.route? app path = some route) ∧
          listed.Nodup ∧
          listed.Pairwise (fun a b => a.path < b.path) ∧
          (store.failure? .fetch = none → ∀ route ∈ listed, route.path ≠ "" →
            ((Client.get backend app route.path).runOn store).1 = .ok route) := by
  intro store
  have hkeyed : store.directory.Keyed := keyed_after steps
  refine ⟨hkeyed, fun app happ hlist => ?_⟩
  obtain ⟨routes, hroutes⟩ := Option.isSome_iff_exists.mp happ
  have hanswer : ((backend.list app).runOn store).1 = .ok (routes.entries.map (·.2)) := by
    rw [runOn_list, hlist, Directory.list, hroutes]
  have hpaths := pairwise_listed hkeyed hroutes
  refine ⟨_, hanswer, ?_, mem_listed_iff hroutes, ?_, hpaths, fun hfetch route hmem hpath => ?_⟩
  · rw [Client.list, runOn_surfacing, hanswer]
    rfl
  · refine hpaths.imp (fun {a b} hlt heq => ?_)
    exact String.lt_irrefl b.path (heq ▸ hlt)
  · obtain ⟨path, hroute⟩ := (mem_listed_iff hroutes route).mp hmem
    obtain rfl := (hkeyed app path route hroute).2
    rw [runOn_client_get]
    exact seek_eq_ok.mpr ⟨by simpa using hpath, hfetch, hroute⟩

/-- Two routes are listed by their paths, not in the order in which they were added. -/
theorem list_shows_kept_pair :
    let store := ({} : Store).after
      [.addRoute "app" { path := "/b" }, .addRoute "app" { path := "/a" }]
    (store.directory.routes? "app").isSome = true ∧ store.failure? .list = none ∧
      ∃ listed, ((Client.list backend "app").runOn store).1 = .ok listed ∧
        listed.map (·.path) = ["/a", "/b"] := by
  intro store
  have happ : (store.directory.routes? "app").isSome = true := rfl
  obtain ⟨listed, -, hanswer, -⟩ := (list_shows_kept _).2 "app" happ rfl
  refine ⟨happ, rfl, listed, hanswer, ?_⟩
  have hlisted : Except.ok listed = (.ok
      [{ appName := "app", path := "/a" }, { appName := "app", path := "/b" }] : Except Error _) :=
    hanswer.symm.trans rfl
  rw [Except.ok.inj hlisted]
  rfl

end Store
end AppRoutes
