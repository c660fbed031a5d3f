/-
Updates that interleave.

An update takes two steps, and between them other updates may take theirs.  When no two
updates share a key, each goes as if it were alone: what it reads of the store is its own
route, the existence of its application and the failures that are told, and no step of
another update changes any of these.  `OnCourse` is that invariant.  Updates that run one
after another are on course too, so every interleaving ends where they end.
-/
import AppRoutes.Proofs.Store.Patch
import Mathlib.Logic.Function.Basic

namespace AppRoutes
namespace Store

open AppRoutes.Action Directory
open AppRoutes.Client (merged)

structure Update where
  app : String
  path : String
  delta : Option Delta

inductive Progress where
  | ready
  | fetched (route : Route)
  | finished (result : Except Error Route)

def Progress.IsFinished (progress : Progress) : Prop := ∃ result, progress = .finished result

namespace Update

def key (update : Update) : String × String := (update.app, update.path)

def run (update : Update) : Action Store Route :=
  Client.patch backend update.app update.path update.delta

/-- The next step of an update: it asks for its route, and submits the merged one only if it
got one. -/
def advance (update : Update) : Progress → Store → Progress × Store
  | .ready, store =>
    match (Client.get backend update.app update.path).runOn store with
    | (.ok route, after) => (.fetched route, after)
    | (.error e, after) => (.finished (.error e), after)
  | .fetched route, store =>
    match (Client.submitMerged backend update.app update.path update.delta route).runOn store with
    | (result, after) => (.finished result, after)
  | .finished result, store => (.finished result, store)

def kept? (update : Update) (store : Store) : Option Route :=
  store.directory.route? update.app update.path

end Update

/-- Only the route under one key changes, and the record. -/
structure Frame (app path : String) (before after : Store) : Prop where
  unrecorded : after.withoutRecord = before.withoutRecord.withDirectory after.directory
  registered : ∀ a, (after.directory.routes? a).isSome = (before.directory.routes? a).isSome
  elsewhere : ∀ a p, (a, p) ≠ (app, path) →
    after.directory.route? a p = before.directory.route? a p

theorem frame_of_withoutRecord {before after : Store}
    (h : after.withoutRecord = before.withoutRecord) (app path : String) :
    Frame app path before after := by
  have hdirectory := directory_eq_of_withoutRecord h
  refine ⟨?_, fun a => ?_, fun a p _ => ?_⟩
  · rw [h, hdirectory]
    rfl
  · rw [hdirectory]
  · rw [hdirectory]

theorem frame_of_put {before after : Store} {app path : String} {old route : Route}
    (hold : before.directory.route? app path = some old)
    (h : after.withoutRecord =
      before.withoutRecord.withDirectory (before.directory.put app path route)) :
    Frame app path before after := by
  have hdirectory : after.directory = before.directory.put app path route :=
    congrArg Store.directory h
  have hbinds := binds_put before.directory app path route
  refine ⟨by rw [h, hdirectory], fun a => ?_, fun a p hne => ?_⟩
  · rw [hdirectory, Bool.eq_iff_iff, hbinds.registered, isSome_routes?_or_eq_iff hold]
  · rw [hdirectory, hbinds.elsewhere a p hne]

theorem frame_advance (update : Update) (progress : Progress) (store : Store) :
    Frame update.app update.path store (update.advance progress store).2 := by
  cases progress with
  | ready =>
    refine frame_of_withoutRecord ?_ _ _
    rw [Update.advance, runOn_client_get]
    cases store.seek update.app update.path <;> exact withoutRecord_asked update.path store
  | fetched route =>
    rw [Update.advance, runOn_submitMerged]
    cases store.failure? .replace with
    | some e =>
      refine frame_of_withoutRecord ?_ _ _
      rfl
    | none =>
      dsimp only
      cases hroute : store.directory.route? update.app update.path with
      | none =>
        refine frame_of_withoutRecord ?_ _ _
        rfl
      | some old => exact frame_of_put hroute rfl
  | finished result => exact frame_of_withoutRecord rfl _ _

/-- An update that started from a store has come so far and has left this route under its
key, as it would have alone. -/
def Update.Expects (update : Update) (start : Store) : Progress → Option Route → Prop
  | .ready, kept => kept = update.kept? start
  | .fetched route, kept => start.seek update.app update.path = .ok route ∧
    kept = update.kept? start
  | .finished result, kept => result = (update.run.runOn start).1 ∧
    kept = update.kept? (update.run.runOn start).2

theorem seek_congr {store start : Store} {app path : String}
    (hfailures : ∀ operation, store.failure? operation = start.failure? operation)
    (happ : (store.directory.routes? app).isSome = (start.directory.routes? app).isSome)
    (hroute : store.directory.route? app path = start.directory.route? app path) :
    store.seek app path = start.seek app path := by
  rw [seek, seek, hfailures, hroute, missing, missing, happ]

theorem expects_of_stopped {update : Update} {start : Store} {e : Error}
    (h : start.updatable update.app update.path = .error e) :
    update.Expects start (.finished (.error e)) (update.kept? start) := by
  obtain ⟨hanswer, hafter⟩ := runOn_patch_eq update.app update.path update.delta start
  rw [updated, h] at hafter
  rw [h] at hanswer
  refine ⟨hanswer.symm, ?_⟩
  rw [Update.kept?, Update.kept?, Update.run, directory_eq_of_withoutRecord hafter]

theorem expects_of_updatable {update : Update} {start : Store} {old : Route}
    (h : start.updatable update.app update.path = .ok old) :
    update.Expects start
      (.finished (.ok (keep update.app update.path (merged old update.delta))))
      (some (keep update.app update.path (merged old update.delta))) := by
  obtain ⟨hanswer, hafter⟩ := runOn_patch_eq update.app update.path update.delta start
  rw [updated, h] at hafter
  rw [h] at hanswer
  refine ⟨hanswer.symm, ?_⟩
  rw [Update.kept?, Update.run, directory_eq_of_withoutRecord hafter]
  exact (binds_put start.directory update.app update.path _).atKey.symm

/-- The next step of an update does what it would do alone, wherever the failures, the
existence of its application and its own route are as they would be. -/
theorem expects_advance {update : Update} {start store : Store} {progress : Progress}
    (hfailures : ∀ operation, store.failure? operation = start.failure? operation)
    (happ : (store.directory.routes? update.app).isSome =
      (start.directory.routes? update.app).isSome)
    (h : update.Expects start progress (update.kept? store)) :
    update.Expects start (update.advance progress store).1
      (update.kept? (update.advance progress store).2) := by
  cases progress with
  | ready =>
    have hdirectory := directory_eq_of_withoutRecord (withoutRecord_asked update.path store)
    rw [Update.advance, runOn_client_get, seek_congr hfailures happ h]
    cases hseek : start.seek update.app update.path with
    | error e =>
      have hstopped : start.updatable update.app update.path = .error e := by
        rw [updatable, hseek]
      dsimp only
      rw [Update.kept?, hdirectory, show store.directory.route? _ _ = update.kept? start from h]
      exact expects_of_stopped hstopped
    | ok route =>
      refine ⟨hseek, ?_⟩
      dsimp only
      rw [Update.kept?, hdirectory]
      exact h
  | fetched route =>
    obtain ⟨hseek, hkept⟩ := h
    have hroute : store.directory.route? update.app update.path = some route :=
      hkept.trans (seek_eq_ok.mp hseek).2.2
    rw [Update.advance, runOn_submitMerged, hfailures, hroute]
    cases hreplace : start.failure? .replace with
    | some e =>
      have hstopped :
          start.updatable update.app update.path = .error (e.surfaceOnly updateErrors) := by
        rw [updatable, hseek, hreplace]
      have hexpects := expects_of_stopped hstopped
      rw [← hkept] at hexpects
      exact hexpects
    | none =>
      have hexpects := expects_of_updatable (updatable_eq_ok.mpr ⟨hseek, hreplace⟩)
      rw [← (binds_put store.directory update.app update.path _).atKey] at hexpects
      exact hexpects
  | finished result => exact h

section

variable {ι : Type} (updates : ι → Update)

structure Scene (ι : Type) where
  store : Store
  progress : ι → Progress

def Scene.opening (start : Store) : Scene ι := ⟨start, fun _ => .ready⟩

/-- The store differs from the one at the start in what the updates have done so far, and each
of them has gone as it would alone. -/
structure OnCourse (start : Store) (scene : Scene ι) : Prop where
  unrecorded : scene.store.withoutRecord =
    start.withoutRecord.withDirectory scene.store.directory
  registered : ∀ a,
    (scene.store.directory.routes? a).isSome = (start.directory.routes? a).isSome
  elsewhere : ∀ a p, (∀ i, (updates i).key ≠ (a, p)) →
    scene.store.directory.route? a p = start.directory.route? a p
  each : ∀ i, (updates i).Expects start (scene.progress i) ((updates i).kept? scene.store)

theorem onCourse_opening (start : Store) : OnCourse updates start (.opening start) :=
  ⟨rfl, fun _ => rfl, fun _ _ _ => rfl, fun _ => rfl⟩

theorem OnCourse.failure?_eq {updates : ι → Update} {start : Store} {scene : Scene ι}
    (h : OnCourse updates start scene) (operation : Operation) :
    scene.store.failure? operation = start.failure? operation := by
  have hunrecorded : scene.store.withoutRecord =
      (start.withDirectory scene.store.directory).withoutRecord := h.unrecorded
  exact failure?_eq_of_withoutRecord hunrecorded operation

theorem OnCourse.of_finished {updates : ι → Update} {start : Store} {scene : Scene ι}
    (h : OnCourse updates start scene) {i : ι} {result : Except Error Route}
    (hresult : scene.progress i = .finished result) :
    result = ((updates i).run.runOn start).1 ∧
      (updates i).kept? scene.store = (updates i).kept? ((updates i).run.runOn start).2 := by
  have hexpects := h.each i
  rw [hresult] at hexpects
  exact hexpects

theorem OnCourse.unique {updates : ι → Update} {start : Store} {scene scene' : Scene ι}
    (h : OnCourse updates start scene) (h' : OnCourse updates start scene')
    (hfinished : ∀ i, (scene.progress i).IsFinished)
    (hfinished' : ∀ i, (scene'.progress i).IsFinished) :
    scene.progress = scene'.progress ∧
      scene.store.withoutRecord = scene'.store.withoutRecord := by
  constructor
  · funext i
    obtain ⟨result, hresult⟩ := hfinished i
    obtain ⟨result', hresult'⟩ := hfinished' i
    rw [hresult, hresult', (h.of_finished hresult).1, (h'.of_finished hresult').1]
  · have hdirectory : scene.store.directory = scene'.store.directory := by
      refine ext_route? (fun a => ?_) (fun a p => ?_)
      · rw [h.registered, h'.registered]
      · by_cases hmine : ∃ i, (updates i).key = (a, p)
        · obtain ⟨i, hi⟩ := hmine
          obtain ⟨rfl, rfl⟩ := Prod.mk.inj hi
          obtain ⟨result, hresult⟩ := hfinished i
          obtain ⟨result', hresult'⟩ := hfinished' i
          exact (h.of_finished hresult).2.trans (h'.of_finished hresult').2.symm
        · have hother : ∀ i, (updates i).key ≠ (a, p) := fun i hi => hmine ⟨i, hi⟩
          rw [h.elsewhere a p hother, h'.elsewhere a p hother]
    rw [h.unrecorded, h'.unrecorded, hdirectory]

variable [DecidableEq ι]

/-- An update takes its next step.  One that has finished lets its turn pass. -/
def Scene.turn (scene : Scene ι) (i : ι) : Scene ι :=
  let (progress, store) := (updates i).advance (scene.progress i) scene.store
  ⟨store, Function.update scene.progress i progress⟩

/-- The updates take turns, as the schedule says. -/
def interleaved (scene : Scene ι) (schedule : List ι) : Scene ι :=
  schedule.foldl (Scene.turn updates) scene

def Scene.whole (scene : Scene ι) (i : ι) : Scene ι :=
  let (result, store) := (updates i).run.runOn scene.store
  ⟨store, Function.update scene.progress i (.finished result)⟩

/-- The updates run one after another, in the order given. -/
def inTurn (scene : Scene ι) (order : List ι) : Scene ι :=
  order.foldl (Scene.whole updates) scene

variable {updates} {start : Store} {scene : Scene ι}

/-- Two turns of an update that nothing comes between are the whole update. -/
theorem turn_turn {i : ι} (hready : scene.progress i = .ready) :
    (scene.turn updates i).turn updates i = scene.whole updates i := by
  have hrun := Client.runOn_patch_get backend (updates i).app (updates i).path (updates i).delta
    scene.store
  unfold Scene.turn Scene.whole
  rw [hready, Update.run, hrun]
  dsimp only [Update.advance]
  rcases (Client.get backend (updates i).app (updates i).path).runOn scene.store with
    ⟨e | route, store⟩
  · simp
  · simp

theorem OnCourse.turn (hkeys : Function.Injective fun i => (updates i).key)
    (h : OnCourse updates start scene) (i : ι) :
    OnCourse updates start (scene.turn updates i) := by
  have hframe := frame_advance (updates i) (scene.progress i) scene.store
  refine ⟨?_, fun a => ?_, fun a p hother => ?_, fun j => ?_⟩
  · show ((updates i).advance (scene.progress i) scene.store).2.withoutRecord = _
    rw [hframe.unrecorded, h.unrecorded]
    rfl
  · exact (hframe.registered a).trans (h.registered a)
  · exact (hframe.elsewhere a p (Ne.symm (hother i))).trans (h.elsewhere a p hother)
  · show (updates j).Expects start
      (Function.update scene.progress i
        ((updates i).advance (scene.progress i) scene.store).1 j)
      ((updates j).kept? ((updates i).advance (scene.progress i) scene.store).2)
    by_cases hj : j = i
    · subst hj
      rw [Function.update_self]
      exact expects_advance h.failure?_eq (h.registered _) (h.each j)
    · -- The key of another update is elsewhere, so its route stays what it was.
      have hkey : (updates j).key ≠ (updates i).key := fun heq => hj (hkeys heq)
      rw [Function.update_of_ne hj, Update.kept?, hframe.elsewhere _ _ hkey]
      exact h.each j

theorem OnCourse.interleaved (hkeys : Function.Injective fun i => (updates i).key)
    (schedule : List ι) (h : OnCourse updates start scene) :
    OnCourse updates start (interleaved updates scene schedule) := by
  induction schedule generalizing scene with
  | nil => exact h
  | cons i rest ih => exact ih (h.turn hkeys i)

theorem OnCourse.inTurn (hkeys : Function.Injective fun i => (updates i).key) {order : List ι}
    (horder : order.Nodup) (hready : ∀ i ∈ order, scene.progress i = .ready)
    (h : OnCourse updates start scene) : OnCourse updates start (inTurn updates scene order) := by
  induction order generalizing scene with
  | nil => exact h
  | cons i rest ih =>
    obtain ⟨hnot, hrest⟩ := List.nodup_cons.mp horder
    have hwhole : OnCourse updates start (scene.whole updates i) := by
      rw [← turn_turn (hready i List.mem_cons_self)]
      exact (h.turn hkeys i).turn hkeys i
    refine ih hrest (fun j hj => ?_) hwhole
    have hne : j ≠ i := fun heq => hnot (heq ▸ hj)
    show Function.update scene.progress i _ j = .ready
    rw [Function.update_of_ne hne]
    exact hready j (List.mem_cons_of_mem i hj)

/-! ## The end of an interleaving -/

def Progress.remaining : Progress → Nat
  | .ready => 2
  | .fetched _ => 1
  | .finished _ => 0

theorem isFinished_iff_remaining (progress : Progress) :
    progress.IsFinished ↔ progress.remaining = 0 := by
  cases progress <;> simp [Progress.IsFinished, Progress.remaining]

theorem remaining_advance (update : Update) (progress : Progress) (store : Store) :
    (update.advance progress store).1.remaining ≤ progress.remaining - 1 := by
  cases progress with
  | ready =>
    rw [Update.advance]
    rcases (Client.get backend update.app update.path).runOn store with ⟨e | route, after⟩
    · exact Nat.zero_le _
    · exact Nat.le_refl 1
  | fetched route => exact Nat.le_refl 0
  | finished result => exact Nat.le_refl 0

theorem remaining_interleaved (schedule : List ι) (i : ι) :
    ((interleaved updates scene schedule).progress i).remaining ≤
      (scene.progress i).remaining - schedule.count i := by
  induction schedule generalizing scene with
  | nil => exact Nat.le_refl _
  | cons j rest ih =>
    refine Nat.le_trans ih ?_
    show (Function.update scene.progress j
      ((updates j).advance (scene.progress j) scene.store).1 i).remaining - rest.count i ≤ _
    by_cases hi : i = j
    · subst hi
      rw [Function.update_self, List.count_cons_self]
      have := remaining_advance (updates i) (scene.progress i) scene.store
      omega
    · exact Nat.le_of_eq
        (by rw [Function.update_of_ne hi, List.count_cons_of_ne (Ne.symm hi)])

theorem isFinished_inTurn {order : List ι} {i : ι}
    (h : i ∈ order ∨ (scene.progress i).IsFinished) :
    ((inTurn updates scene order).progress i).IsFinished := by
  induction order generalizing scene with
  | nil => exact h.resolve_left List.not_mem_nil
  | cons j rest ih =>
    refine ih ?_
    by_cases hi : i = j
    · subst hi
      refine Or.inr ⟨((updates i).run.runOn scene.store).1, ?_⟩
      exact Function.update_self i _ scene.progress
    · refine h.imp (fun hmem => ?_) (fun hfinished => ?_)
      · exact (List.mem_cons.mp hmem).resolve_left hi
      · show (Function.update scene.progress j _ i).IsFinished
        rw [Function.update_of_ne hi]
        exact hfinished

/-- Updates whose keys all differ may interleave as they like.  An update that has finished
answers, and has left under its key, what it would alone, and so it does when the updates run
one after another in any order; two turns are all that it needs; and when every update has
finished, the store is the one that they leave in turn, its record apart. -/
theorem interleaved_as_in_turn (updates : ι → Update)
    (hkeys : Function.Injective fun i => (updates i).key) (start : Store) (schedule : List ι)
    {order : List ι} (horder : order.Nodup) (hall : ∀ i, i ∈ order) :
    let mixed := interleaved updates (.opening start) schedule
    let ordered := inTurn updates (.opening start) order
    (∀ i result, mixed.progress i = .finished result →
        ordered.progress i = .finished result ∧
          ((updates i).run.runOn start).1 = result ∧
          (updates i).kept? mixed.store = (updates i).kept? ((updates i).run.runOn start).2) ∧
      (∀ i, 2 ≤ schedule.count i → (mixed.progress i).IsFinished) ∧
      ((∀ i, (mixed.progress i).IsFinished) →
        mixed.progress = ordered.progress ∧
          mixed.store.withoutRecord = ordered.store.withoutRecord) := by
  intro mixed ordered
  have hopening := onCourse_opening updates start
  have hmixed : OnCourse updates start mixed := hopening.interleaved hkeys schedule
  have hordered : OnCourse updates start ordered :=
    hopening.inTurn hkeys horder (fun _ _ => rfl)
  have hend : ∀ i, (ordered.progress i).IsFinished :=
    fun i => isFinished_inTurn (Or.inl (hall i))
  refine ⟨fun i result hresult => ?_, fun i hturns => ?_, fun hfinished => ?_⟩
  · obtain ⟨hanswer, hkept⟩ := hmixed.of_finished hresult
    obtain ⟨result', hresult'⟩ := hend i
    obtain ⟨hanswer', -⟩ := hordered.of_finished hresult'
    exact ⟨by rw [hresult', hanswer, hanswer'], hanswer.symm, hkept⟩
  · have hremaining : (mixed.progress i).remaining ≤ 2 - schedule.count i :=
      remaining_interleaved schedule i
    rw [isFinished_iff_remaining]
    omega
  · exact hmixed.unique hordered hfinished hend

end

/-- Two updates in one application whose steps alternate. -/
theorem interleaved_as_in_turn_pair :
    let updates : Bool → Update :=
      fun i => ⟨"app", if i then "/a" else "/b", some { image := some "new" }⟩
    let start := (({} : Store).addRoute "app" { path := "/a" }).addRoute "app" { path := "/b" }
    (Function.Injective fun i => (updates i).key) ∧
      [false, true].Nodup ∧ (∀ i, i ∈ [false, true]) ∧
      (interleaved updates (.opening start) [true, false, true, false]).store.withoutRecord =
        (inTurn updates (.opening start) [false, true]).store.withoutRecord := by
  intro updates start
  have hkeys : Function.Injective fun i => (updates i).key := by
    intro i j h
    cases i <;> cases j <;> simp_all [updates, Update.key]
  have horder : [false, true].Nodup := by decide
  have hall : ∀ i, i ∈ [false, true] := by decide
  obtain ⟨-, hturns, hend⟩ :=
    interleaved_as_in_turn updates hkeys start [true, false, true, false] horder hall
  have hfinished := fun i => hturns i (by cases i <;> decide)
  exact ⟨hkeys, horder, hall, (hend hfinished).2⟩

end Store
end AppRoutes
