/-
Reading back what was written.

The history of a run tells what a client gets: the route of the last write to the key, unless
the key was deleted since, and otherwise whether the application was ever named.  `Recalls`
says that a directory and a past agree in this; a step keeps them in agreement, because the
deed of the step is both its part of the past and its effect on the directory.
-/
import AppRoutes.Proofs.Store.Patch
import AppRoutes.Proofs.Store.Run

namespace AppRoutes

namespace Store

open AppRoutes.Action Directory

def Event.Writes (event : Event) (app path : String) (route : Route) : Prop :=
  event.deed.settles? app path = some (some route)

/-- The event writes or deletes the key. -/
def Event.Settles (event : Event) (app path : String) : Prop :=
  event.deed.settles? app path ≠ none

/-- The route is what the last write to the key has put there, and it was not deleted since. -/
def LastWritten (past : List Event) (app path : String) (route : Route) : Prop :=
  ∃ earlier event later, past = earlier ++ event :: later ∧
    event.Writes app path route ∧ ∀ e ∈ later, ¬e.Settles app path

/-- The application was added, or a route was added or created in it. -/
def Named (past : List Event) (app : String) : Prop := ∃ event ∈ past, event.deed.Names app

theorem lastWritten_append_singleton {past : List Event} {event : Event} {app path : String}
    {route : Route} :
    LastWritten (past ++ [event]) app path route ↔
      event.Writes app path route ∨
        ¬event.Settles app path ∧ LastWritten past app path route := by
  constructor
  · rintro ⟨earlier, e, later, hpast, hwrites, hlater⟩
    rcases List.eq_nil_or_concat later with rfl | ⟨between, last, rfl⟩
    · obtain ⟨rfl, rfl⟩ := List.append_singleton_inj.mp hpast
      exact Or.inl hwrites
    · rw [List.concat_eq_append, ← List.cons_append, ← List.append_assoc] at hpast
      obtain ⟨rfl, rfl⟩ := List.append_singleton_inj.mp hpast
      refine Or.inr ⟨hlater event (by simp), earlier, e, between, rfl, hwrites, ?_⟩
      exact fun e' hmem => hlater e' (by simp [hmem])
  · rintro (hwrites | ⟨hsettles, earlier, e, later, rfl, hwrites, hlater⟩)
    · exact ⟨past, event, [], rfl, hwrites, List.forall_mem_nil _⟩
    · refine ⟨earlier, e, later ++ [event], by simp, hwrites, fun e' hmem => ?_⟩
      rcases List.mem_append.mp hmem with hmem | hmem
      · exact hlater e' hmem
      · rw [List.mem_singleton.mp hmem]
        exact hsettles

theorem named_append_singleton {past : List Event} {event : Event} {app : String} :
    Named (past ++ [event]) app ↔ Named past app ∨ event.deed.Names app := by
  simp [Named, or_and_right, exists_or]

/-- The directory keeps the last written routes, in the named applications. -/
structure Recalls (past : List Event) (d : Directory) : Prop where
  route : ∀ app path route, d.route? app path = some route ↔ LastWritten past app path route
  registered : ∀ app, (d.routes? app).isSome = true ↔ Named past app

theorem recalls_nil : Recalls [] {} where
  route app path route := by
    constructor
    · nofun
    · rintro ⟨earlier, event, later, hpast, -⟩
      simp at hpast
  registered app := by
    constructor
    · nofun
    · rintro ⟨event, hmem, -⟩
      cases hmem

theorem Recalls.append {past : List Event} {before after : Directory} {event : Event}
    (h : Recalls past before) (hmarks : event.deed.Marks before after) :
    Recalls (past ++ [event]) after where
  route app path route := by
    rw [lastWritten_append_singleton, hmarks.route, ← h.route, Event.Writes, Event.Settles]
    cases event.deed.settles? app path with
    | none => simp
    | some kept => simp
  registered app := by rw [hmarks.registered, h.registered, named_append_singleton]

theorem recalls_after (steps : List Step) :
    Recalls (({} : Store).history steps) (({} : Store).after steps).directory :=
  run_induction (P := fun past store => Recalls past store.directory)
    (fun _ store step h => h.append (marks_perform step store)) steps [] {} recalls_nil

/-! ## Answers -/

/-- What a client is told that asks for a route where nothing is told to fail. -/
theorem seek_of_failure?_eq_none {store : Store} (hfetch : store.failure? .fetch = none)
    {path : String} (hpath : path ≠ "") (app : String) :
    store.seek app path =
      match store.directory.route? app path with
      | some route => .ok route
      | none => .error (store.directory.missing app) := by
  rw [seek, if_neg (by simpa using hpath)]
  cases store.directory.route? app path <;> simp [hfetch]

theorem missing_eq_notFound (d : Directory) (app message : String) :
    d.missing app = .notFound message ↔
      message = if (d.routes? app).isSome then "Route not found" else "App not found" := by
  rw [missing]
  cases (d.routes? app).isSome
  · exact ⟨fun h => (Error.notFound.inj h).symm, fun h => h ▸ rfl⟩
  · exact ⟨fun h => (Error.notFound.inj h).symm, fun h => h ▸ rfl⟩

theorem seek_eq_notFound_iff {store : Store} (hfetch : store.failure? .fetch = none)
    {path : String} (hpath : path ≠ "") (app message : String) :
    store.seek app path = .error (.notFound message) ↔
      store.directory.route? app path = none ∧
        message = if (store.directory.routes? app).isSome then "Route not found"
          else "App not found" := by
  rw [seek_of_failure?_eq_none hfetch hpath, ← missing_eq_notFound]
  cases store.directory.route? app path <;> simp

theorem Recalls.route?_eq_none_iff {past : List Event} {d : Directory} (h : Recalls past d)
    (app path : String) :
    d.route? app path = none ↔ ∀ route, ¬LastWritten past app path route := by
  rw [Option.eq_none_iff_forall_ne_some]
  exact forall_congr' (fun route => not_congr (h.route app path route))

/-- A step that neither settles a key nor names its application for the first time leaves what
a client is told of the key as it was. -/
theorem seek_perform {store : Store} {step : Step} {app path : String}
    (hsettles : ¬(eventOf step store).Settles app path)
    (hnames : (eventOf step store).deed.Names app → (store.directory.routes? app).isSome = true)
    (hbefore : store.failure? .fetch = none) (hafter : (step.perform store).2.failure? .fetch = none)
    (hpath : path ≠ "") : (step.perform store).2.seek app path = store.seek app path := by
  have hmarks := marks_perform step store
  have hroute : (step.perform store).2.directory.route? app path =
      store.directory.route? app path := by
    rw [hmarks.route, Decidable.of_not_not hsettles]
    rfl
  have happ : ((step.perform store).2.directory.routes? app).isSome =
      (store.directory.routes? app).isSome := by
    rw [Bool.eq_iff_iff, hmarks.registered]
    exact ⟨fun h => h.elim id hnames, Or.inl⟩
  rw [seek_of_failure?_eq_none hafter hpath, seek_of_failure?_eq_none hbefore hpath, hroute,
    missing, missing, happ]

/-- A client gets the last written route, and is told that there is no route or no
application where nothing is left of one.  Nothing else that happens changes the answer. -/
theorem get_reads_last_write (steps : List Step) (app path : String) (hpath : path ≠ "")
    (hfetch : (({} : Store).after steps).failure? .fetch = none) :
    let past := ({} : Store).history steps
    let store := ({} : Store).after steps
    let answer := ((Client.get backend app path).runOn store).1
    (∀ route, answer = .ok route ↔ LastWritten past app path route) ∧
      (answer = .error (.notFound "Route not found") ↔
        (∀ route, ¬LastWritten past app path route) ∧ Named past app) ∧
      (answer = .error (.notFound "App not found") ↔
        (∀ route, ¬LastWritten past app path route) ∧ ¬Named past app) ∧
      ∀ step, ¬(eventOf step store).Settles app path →
        ((eventOf step store).deed.Names app → Named past app) →
        (step.perform store).2.failure? .fetch = none →
        ((Client.get backend app path).runOn (step.perform store).2).1 = answer := by
  intro past store answer
  have hrecalls : Recalls past store.directory := recalls_after steps
  have hanswer : answer = store.seek app path :=
    congrArg Prod.fst (runOn_client_get app path store)
  refine ⟨fun route => ?_, ?_, ?_, fun step hsettles hnames hafter => ?_⟩
  · rw [← hrecalls.route, hanswer, seek_of_failure?_eq_none hfetch hpath]
    cases store.directory.route? app path <;> simp
  · rw [hanswer, seek_eq_notFound_iff hfetch hpath, hrecalls.route?_eq_none_iff,
      ← hrecalls.registered]
    cases (store.directory.routes? app).isSome <;> simp
  · rw [hanswer, seek_eq_notFound_iff hfetch hpath, hrecalls.route?_eq_none_iff,
      ← hrecalls.registered]
    cases (store.directory.routes? app).isSome <;> simp
  · rw [hanswer, runOn_client_get]
    exact seek_perform hsettles (fun h => (hrecalls.registered app).mpr (hnames h)) hfetch hafter
      hpath

/-- An updated route is read back after a deletion that failed. -/
theorem get_reads_last_write_updated :
    let steps : List Step :=
      [.addRoute "app" { path := "/a", image := "old" },
        .call (.client (.patch "app" "/a" (some { image := some "new" }))),
        .call (.client (.delete "app" "/b"))]
    "/a" ≠ "" ∧ (({} : Store).after steps).failure? .fetch = none ∧
      ((Client.get backend "app" "/a").runOn (({} : Store).after steps)).1 =
        .ok { appName := "app", path := "/a", image := "new", config := some ∅,
              headers := some ∅ } := by
  intro steps
  have hpath : "/a" ≠ "" := by decide
  have hfetch : (({} : Store).after steps).failure? .fetch = none := rfl
  obtain ⟨hread, -⟩ := get_reads_last_write steps "app" "/a" hpath hfetch
  refine ⟨hpath, hfetch, (hread _).mpr ?_⟩
  refine ⟨[_], _, [_], rfl, rfl, fun e hmem => ?_⟩
  rw [List.mem_singleton.mp hmem]
  exact fun hsettles => hsettles rfl

end Store
end AppRoutes
