/-
Narrowing errors, once and several times.

An operation narrows the errors of its backend, and what runs the operation may narrow them
again.  Each narrowing either leaves an error or turns it into an unexpected one that nothing
changes any more, so a row of narrowings comes to one question: whether some list leaves out the
category.  The message stays in both cases, and so does the status that the error stands for.
-/
import AppRoutes.Proofs.Client
import AppRoutes.Proofs.Error

namespace AppRoutes

namespace Error

/-- Narrow an error to several lists of categories, one after another. -/
def narrow (lists : List (List Category)) (e : Error) : Error :=
  lists.foldl (fun e allowed => e.surfaceOnly allowed) e

/-- The error stands for an answer whose category one of the lists leaves out. -/
def IsDropped (lists : List (List Category)) (e : Error) : Prop :=
  e.category.isRemote = true ∧ ∃ allowed ∈ lists, e.category ∉ allowed

instance (lists : List (List Category)) (e : Error) : Decidable (e.IsDropped lists) :=
  inferInstanceAs (Decidable (_ ∧ _))

theorem surfaceOnly_of_not_mem {e : Error} {allowed : List Category}
    (hremote : e.category.isRemote = true) (h : e.category ∉ allowed) :
    e.surfaceOnly allowed = .unexpected e.message e.category.status? := by
  rw [surfaceOnly, if_pos]
  simp [hremote, h]

theorem surfaceOnly_of_mem {e : Error} {allowed : List Category} (h : e.category ∈ allowed) :
    e.surfaceOnly allowed = e := by
  rw [surfaceOnly, if_neg]
  simp [h]

theorem surfaceOnly_of_not_isRemote {e : Error} (h : e.category.isRemote = false)
    (allowed : List Category) : e.surfaceOnly allowed = e := by
  rw [surfaceOnly, if_neg]
  simp [h]

theorem narrow_cons (allowed : List Category) (lists : List (List Category)) (e : Error) :
    narrow (allowed :: lists) e = narrow lists (e.surfaceOnly allowed) := rfl

theorem narrow_of_not_isRemote {e : Error} (h : e.category.isRemote = false)
    (lists : List (List Category)) : narrow lists e = e := by
  induction lists with
  | nil => rfl
  | cons allowed lists ih => rw [narrow_cons, surfaceOnly_of_not_isRemote h, ih]

/-- A row of narrowings drops the category if one of the lists does, and else changes nothing. -/
theorem narrow_eq (lists : List (List Category)) (e : Error) :
    narrow lists e =
      if e.IsDropped lists then .unexpected e.message e.category.status? else e := by
  by_cases hremote : e.category.isRemote = true
  · induction lists with
    | nil => exact (if_neg (fun h => by simp [IsDropped] at h)).symm
    | cons allowed lists ih =>
      rw [narrow_cons]
      by_cases hmem : e.category ∈ allowed
      · have hsame : e.IsDropped (allowed :: lists) ↔ e.IsDropped lists := by
          simp [IsDropped, hmem]
        rw [surfaceOnly_of_mem hmem, ih]
        simp only [hsame]
      · have hdropped : e.IsDropped (allowed :: lists) :=
          ⟨hremote, allowed, List.mem_cons_self, hmem⟩
        rw [surfaceOnly_of_not_mem hremote hmem, if_pos hdropped]
        exact narrow_of_not_isRemote rfl lists
  · have hkept : ¬ e.IsDropped lists := fun h => hremote h.1
    rw [if_neg hkept]
    exact narrow_of_not_isRemote (Bool.eq_false_iff.mpr hremote) lists

/-- Neither the order of the lists nor how often one is applied makes a difference. -/
theorem narrow_congr {lists lists' : List (List Category)}
    (h : ∀ allowed, allowed ∈ lists ↔ allowed ∈ lists') (e : Error) :
    narrow lists e = narrow lists' e := by
  have hdropped : e.IsDropped lists ↔ e.IsDropped lists' := by simp only [IsDropped, h]
  rw [narrow_eq, narrow_eq]
  simp only [hdropped]

theorem message_narrow (lists : List (List Category)) (e : Error) :
    (narrow lists e).message = e.message := by
  rw [narrow_eq]
  split <;> rfl

theorem answered?_narrow (lists : List (List Category)) (e : Error) :
    (narrow lists e).answered? = e.answered? := by
  rw [narrow_eq]
  split
  · rename_i hdropped
    obtain ⟨hremote, -⟩ := hdropped
    cases e with
    | validation message | unexpected message status => cases hremote
    | notFound message | conflict message | badRequest message => rfl
  · rfl

theorem isRemote_ofStatus_iff {status : Nat} :
    (Category.ofStatus status).isRemote = true ↔ status ∈ [400, 404, 409] := by
  unfold Category.ofStatus
  split
  · simp_all [Category.isRemote]
  · split
    · simp_all [Category.isRemote]
    · split <;> simp_all [Category.isRemote]

theorem status?_ofStatus {status : Nat} (h : (Category.ofStatus status).isRemote = true) :
    (Category.ofStatus status).status? = some status := by
  rw [isRemote_ofStatus_iff] at h
  simp only [List.mem_cons, List.not_mem_nil, or_false] at h
  rcases h with h | h | h <;> subst h <;> rfl

theorem ofStatus_of_not_isRemote {status : Nat} (message : String)
    (h : ¬ (Category.ofStatus status).isRemote = true) :
    ofStatus status message = .unexpected message (some status) := by
  rw [isRemote_ofStatus_iff] at h
  simp only [List.mem_cons, List.not_mem_nil, or_false, not_or] at h
  exact ofStatus_of_ne message h.1 h.2.1 h.2.2

/-- The error of an answer stays if every list has its category, and else tells the status. -/
theorem narrow_ofStatus (lists : List (List Category)) (status : Nat) (message : String) :
    narrow lists (ofStatus status message) =
      if status ∈ [400, 404, 409] ∧ ∀ allowed ∈ lists, Category.ofStatus status ∈ allowed then
        ofStatus status message
      else .unexpected message (some status) := by
  by_cases hremote : (Category.ofStatus status).isRemote = true
  · have hdropped : (ofStatus status message).IsDropped lists ↔
        ¬ (status ∈ [400, 404, 409] ∧
          ∀ allowed ∈ lists, Category.ofStatus status ∈ allowed) := by
      rw [IsDropped, category_ofStatus, ← isRemote_ofStatus_iff]
      simp [hremote]
    rw [narrow_eq, category_ofStatus, message_ofStatus, status?_ofStatus hremote]
    simp only [hdropped, ite_not]
  · have hnone : ¬ (status ∈ [400, 404, 409] ∧
        ∀ allowed ∈ lists, Category.ofStatus status ∈ allowed) :=
      fun h => hremote (isRemote_ofStatus_iff.mpr h.1)
    rw [if_neg hnone, ofStatus_of_not_isRemote message hremote]
    exact narrow_of_not_isRemote rfl lists

end Error

/-! ## Operations -/

/-- How an error of a backend is reported by an operation that lets some categories through: the
error of an answer stays or tells its status, and any other error stays. -/
structure Error.Reported (allowed : List Category) (e reported : Error) : Prop where
  answer : ∀ status message, e = .ofStatus status message →
    reported = if Category.ofStatus status ∈ allowed then .ofStatus status message
      else .unexpected message (some status)
  other : e.category.isRemote = false → reported = e

theorem Error.reported_surfaceOnly (allowed : List Category) (e : Error) :
    Reported allowed e (e.surfaceOnly allowed) := by
  refine ⟨fun status message he => ?_, fun h => surfaceOnly_of_not_isRemote h allowed⟩
  have hnarrow : e.surfaceOnly allowed = narrow [allowed] (ofStatus status message) := by
    rw [he]
    rfl
  rw [hnarrow, narrow_ofStatus]
  by_cases hremote : (Category.ofStatus status).isRemote = true
  · simp only [isRemote_ofStatus_iff.mp hremote, List.mem_singleton, forall_eq, true_and]
  · rw [ofStatus_of_not_isRemote message hremote, ite_self, ite_self]

namespace Client

open AppRoutes.Action

variable {σ α : Type}

/-- The operation ends with an error of its backend, which it has narrowed, and leaves the
backend in the state `t`. -/
def EndsWith (allowed : List Category) (e : Error) (t : σ) (result : Except Error α × σ) : Prop :=
  ∃ reported, e.Reported allowed reported ∧ result = (.error reported, t)

/-- What the operations of a client let through of the errors of its backend. -/
structure Narrows (backend : Backend σ) : Prop where
  get : ∀ {app path : String} {s t : σ} {e : Error}, path ≠ "" →
    (backend.fetch app path).runOn s = (.error e, t) →
    EndsWith [.notFound] e t ((Client.get backend app path).runOn s)
  list : ∀ {app : String} {s t : σ} {e : Error},
    (backend.list app).runOn s = (.error e, t) →
    EndsWith [.notFound] e t ((Client.list backend app).runOn s)
  delete : ∀ {app path : String} {s t : σ} {e : Error}, path ≠ "" →
    (backend.delete app path).runOn s = (.error e, t) →
    EndsWith [.notFound] e t ((Client.delete backend app path).runOn s)
  create : ∀ {app path : String} {delta : Delta} {s t u : σ} {e : Error}, path ≠ "" →
    (nonempty? delta.image).isSome = true →
    (backend.announce ("creating route " ++ app ++ path ++ " with " ++
      (Route.build path delta).image)).runOn s = (.ok (), u) →
    (backend.create app (Route.build path delta)).runOn u = (.error e, t) →
    EndsWith [.badRequest, .conflict] e t ((Client.create backend app path delta).runOn s)
  /-- The first step of an update. -/
  fetch : ∀ {app path : String} {delta : Option Delta} {s t : σ} {e : Error}, path ≠ "" →
    (backend.fetch app path).runOn s = (.error e, t) →
    EndsWith [.notFound] e t ((Client.patch backend app path delta).runOn s)
  /-- The second step of an update. -/
  replace : ∀ {app path : String} {delta : Option Delta} {route : Route} {s t u v : σ} {e : Error},
    path ≠ "" → (backend.fetch app path).runOn s = (.ok route, u) →
    (backend.announce ("submitting merged route " ++ app ++ path)).runOn u = (.ok (), v) →
    (backend.replace app path (merged route delta)).runOn v = (.error e, t) →
    EndsWith [.badRequest, .notFound, .conflict] e t
      ((Client.patch backend app path delta).runOn s)
  call : ∀ {app path : String} {invocation : Invocation} {s t : σ} {e : Error}, path ≠ "" →
    (backend.invoke app path invocation).runOn s = (.error e, t) →
    EndsWith [] e t ((Client.call backend app path invocation).runOn s)

theorem endsWith_surfacing {action : Action σ α} {s t : σ} {e : Error}
    (h : action.runOn s = (.error e, t)) (allowed : List Category) :
    EndsWith allowed e t ((action.surfacing allowed).runOn s) := by
  rw [runOn_surfacing, h]
  exact ⟨_, e.reported_surfaceOnly allowed, rfl⟩

theorem narrows (backend : Backend σ) : Narrows backend where
  get := by
    intro app path s t e hpath h
    rw [runOn_get, if_neg (not_isEmpty_of_ne hpath)]
    exact endsWith_surfacing h _
  list := by
    intro app s t e h
    exact endsWith_surfacing h _
  delete := by
    intro app path s t e hpath h
    rw [runOn_delete, if_neg (not_isEmpty_of_ne hpath)]
    exact endsWith_surfacing h _
  create := by
    intro app path delta s t u e hpath himage hannounce h
    have hnamed : ¬ (nonempty? delta.image).isNone = true := by
      rw [← Option.not_isSome, himage]
      decide
    rw [runOn_create, if_neg (not_isEmpty_of_ne hpath), if_neg hnamed, submitNew,
      runOn_bind_of_ok hannounce]
    exact endsWith_surfacing h _
  fetch := by
    intro app path delta s t e hpath h
    rw [runOn_patch, if_neg (not_isEmpty_of_ne hpath), h]
    exact ⟨_, e.reported_surfaceOnly _, rfl⟩
  replace := by
    intro app path delta route s t u v e hpath hfetch hannounce h
    rw [runOn_patch, if_neg (not_isEmpty_of_ne hpath), hfetch]
    dsimp only
    rw [submitMerged, runOn_bind_of_ok hannounce]
    exact endsWith_surfacing h _
  call := by
    intro app path invocation s t e hpath h
    rw [runOn_call, if_neg (not_isEmpty_of_ne hpath)]
    exact endsWith_surfacing h _

end Client

/-- However often an error is narrowed, and in whatever order, the error of an answer stays if
every list has its category and else becomes an unexpected error with its message and status.  So
message and status are never lost, an error of no answer stays, and each operation of a client
reports every error of its backend with both. -/
theorem narrowing_keeps_message_and_status :
    (∀ lists status message, Error.narrow lists (.ofStatus status message) =
      if status ∈ [400, 404, 409] ∧ ∀ allowed ∈ lists, Category.ofStatus status ∈ allowed then
        .ofStatus status message
      else .unexpected message (some status)) ∧
    (∀ lists (e : Error), (e.narrow lists).message = e.message ∧
      (e.narrow lists).answered? = e.answered? ∧
      (e.category.isRemote = false → e.narrow lists = e)) ∧
    (∀ lists lists' (e : Error), (∀ allowed, allowed ∈ lists ↔ allowed ∈ lists') →
      e.narrow lists = e.narrow lists') ∧
    ∀ (σ : Type) (backend : Backend σ), Client.Narrows backend := by
  refine ⟨Error.narrow_ofStatus, fun lists e => ⟨Error.message_narrow lists e,
    Error.answered?_narrow lists e, fun h => Error.narrow_of_not_isRemote h lists⟩, ?_, ?_⟩
  · intro lists lists' e h
    exact Error.narrow_congr h e
  · intro σ backend
    exact Client.narrows backend

/-- A conflict passes a list that has it, and no later list that does not. -/
example : Error.narrow [[.conflict], [.notFound], [.conflict]] (.ofStatus 409 "dup") =
    .unexpected "dup" (some 409) := by
  decide

end AppRoutes
