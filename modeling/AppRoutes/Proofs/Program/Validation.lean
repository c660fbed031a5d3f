/-
Arguments are checked before the backend is reached.

A command that submits a route blames its arguments exactly if they are at fault, and then the
backend is left as it was.  Otherwise the backend is reached, and nothing that it answers is
taken for a fault of the arguments.
-/
import AppRoutes.Proofs.Http.Operations
import AppRoutes.Proofs.Http.Patch
import AppRoutes.Proofs.Program.Writing
import AppRoutes.Proofs.Store.Submission

namespace AppRoutes.Program

open AppRoutes.Action Http

namespace Writing

theorem category_of_literalFault? {target : Literal.Target} {literals : List String} {e : Error}
    (h : Literal.fault? target literals = some e) : e.category = .validation := by
  obtain ⟨literal, -, rfl⟩ := Option.map_eq_some_iff.mp h
  rfl

theorem category_of_fault? {writing : Writing} {descriptor : Option Descriptor} {e : Error}
    (h : writing.fault? descriptor = some e) : e.category = .validation := by
  rcases Option.or_eq_some_iff.mp h with hliteral | ⟨-, hrest⟩
  · rcases Option.or_eq_some_iff.mp hliteral with hconfig | ⟨-, hheader⟩
    · exact category_of_literalFault? hconfig
    · exact category_of_literalFault? hheader
  · split at hrest
    · cases hrest
      rfl
    · split at hrest
      · cases hrest
        rfl
      · cases hrest

section

variable {σ τ : Type}

/-- How a command goes on a backend whose calls `trace` tells in order: faulty arguments are
blamed and leave the backend alone, others are not and reach it with `first`. -/
structure ChecksFirst (writing : Writing) (descriptor : Option Descriptor) (trace : σ → List τ)
    (first : String → τ) (before : σ) (run : Except Failure Unit × Session σ) : Prop where
  blames : (∃ e, run.1 = .error (.operation e) ∧ e.category = .validation) ↔
    writing.IsFaulty descriptor
  /-- What is reported is the first fault. -/
  refuses : writing.IsFaulty descriptor → ∃ e, writing.fault? descriptor = some e ∧
    run.1 = .error (.operation e) ∧ run.2.backend = before
  /-- A new route is submitted with the first call, and this is the last one. -/
  reaches : ¬ writing.IsFaulty descriptor → ∃ key rest, writing.key? descriptor = some key ∧
    trace run.2.backend = trace before ++ first key :: rest ∧ (writing.mode = .create → rest = [])

/-- Submitting what passes the checks of the client calls the backend, and no error of the
backend blames the arguments. -/
def Submits (writing : Writing) (backend : Backend σ) (trace : σ → List τ) (first : String → τ)
    (before : σ) : Prop :=
  ∀ resolved : Resolved, resolved.Passes writing.mode →
    Blameless ((writing.submit backend resolved).runOn before).1 ∧
      ∃ rest, trace ((writing.submit backend resolved).runOn before).2 =
        trace before ++ first resolved.path :: rest ∧ (writing.mode = .create → rest = [])

theorem checksFirst_execute {context : Context} {descriptor : Option Descriptor}
    (hload : context.Holds descriptor)
    {writing : Writing} {backend : Backend σ} {trace : σ → List τ} {first : String → τ}
    (session : Session σ) (h : writing.Submits backend trace first session.backend) :
    writing.ChecksFirst descriptor trace first session.backend
      ((execute context backend writing.command).runOn session) := by
  obtain ⟨hresult, hbackend⟩ := performs_execute hload backend writing session
  rw [runOn_run] at hresult hbackend
  have hfaulty := fault?_eq_none_iff writing descriptor
  cases hfault : writing.fault? descriptor with
  | some e =>
    have hblamed : writing.IsFaulty descriptor := Classical.byContradiction fun hsound => by
      rw [hfaulty.mpr hsound] at hfault
      cases hfault
    rw [resolved_of_fault? hfault] at hresult hbackend
    exact ⟨iff_of_true ⟨e, hresult, category_of_fault? hfault⟩ hblamed,
      fun _ => ⟨e, hfault, hresult, hbackend⟩, fun hsound => absurd hblamed hsound⟩
  | none =>
    obtain ⟨config, headers, key, -, -, hkey, -, hresolved⟩ := resolved_of_fault?_eq_none hfault
    obtain ⟨hblameless, rest, htrace, hrest⟩ := h _ (passes_of_resolved hresolved)
    rw [hresolved] at hresult hbackend
    have hsound := hfaulty.mp hfault
    refine ⟨iff_of_false ?_ hsound, fun hblamed => absurd hblamed hsound,
      fun _ => ⟨key, rest, hkey, ?_, hrest⟩⟩
    · -- What is reported is the error of the backend, which does not blame the arguments.
      rintro ⟨e, he, hvalidation⟩
      exact hblameless e (Handler.mapError_operation_eq_error.mp (hresult.symm.trans he)) hvalidation
    · rw [hbackend]
      exact htrace

end

/-! ## The two backends -/

/-- The operation of a store that a command starts with. -/
def firstCall : Mode → Operation
  | .create => .create
  | .update => .fetch

theorem submits_store (writing : Writing) (store : Store) :
    writing.Submits Store.backend Store.calls (fun _ => firstCall writing.mode) store := by
  intro resolved hpasses
  cases writing with
  | create app path image fields =>
    rw [runOn_submit_create hpasses]
    exact ⟨blameless_map (Store.blameless_submitNew _ _ _ store) _, [],
      Store.calls_submitNew _ _ _ store, fun _ => rfl⟩
  | update arguments =>
    rw [submit, runOn_discard]
    obtain ⟨rest, hcalls⟩ :=
      Store.calls_patch hpasses.path arguments.app (some resolved.delta) store
    exact ⟨blameless_map (Store.blameless_patch hpasses.path _ _ store) _, rest, hcalls,
      fun hcreate => by cases hcreate⟩

end Writing

/-- The methods and URLs of the requests that a server has received. -/
def destinations (exchange : Exchange) : List (String × String) :=
  exchange.received.map fun request => (request.method, request.url)

theorem destinations_of_received {before after : Exchange} {request : Request}
    {rest : List Request} (h : after.received = before.received ++ request :: rest) :
    destinations after = destinations before ++
      (request.method, request.url) :: rest.map (fun request => (request.method, request.url)) := by
  rw [destinations, h, List.map_append]
  rfl

namespace Writing

/-- The method and the URL of the request that a command starts with. -/
def firstDestination (api : Api) (app : String) : Mode → String → String × String
  | .create, _ => ("POST", api.routesUrl app)
  | .update, path => ("GET", api.routeUrl app path)

theorem submits_remote (writing : Writing) (api : Api) {exchange : Exchange}
    (hreach : exchange.isReachable = true) :
    writing.Submits api.backend destinations (firstDestination api writing.app writing.mode)
      exchange := by
  intro resolved hpasses
  cases writing with
  | create app path image fields =>
    rw [runOn_submit_create hpasses]
    exact ⟨blameless_map (api.blameless_submitNew _ _ _ hreach) _, [],
      destinations_of_received (api.received_submitNew _ _ _ hreach), fun _ => rfl⟩
  | update arguments =>
    rw [submit, runOn_discard]
    obtain ⟨rest, hreceived⟩ := api.received_patch arguments.app resolved.path
      (some resolved.delta) hpasses.path hreach
    exact ⟨blameless_map (api.blameless_patch _ _ _ hpasses.path hreach) _, _,
      destinations_of_received hreceived, fun hcreate => by cases hcreate⟩

/-- What a command that submits a route blames on its arguments is exactly what is wrong with
them, and the first such fault is reported before the backend is reached.  Arguments without a
fault reach it, so what resolving a new route lets through passes the client's own checks. -/
theorem faults_precede_backend {context : Context} {descriptor : Option Descriptor}
    (hload : context.Holds descriptor)
    (writing : Writing) :
    (∀ session : Session Store,
      writing.ChecksFirst descriptor Store.calls (fun _ => firstCall writing.mode)
        session.backend ((execute context Store.backend writing.command).runOn session)) ∧
    (∀ (api : Api) (session : Session Exchange), session.backend.isReachable = true →
      writing.ChecksFirst descriptor destinations (firstDestination api writing.app writing.mode)
        session.backend ((execute context api.backend writing.command).runOn session)) ∧
    ∀ (path : Option String) (flags : Delta) (resolved : Resolved),
      resolve .create path flags descriptor = .ok resolved → ∀ {σ : Type} (s : σ),
        (Client.requirePath resolved.path : Action σ Unit).runOn s = (.ok (), s) ∧
        (Client.requireImage resolved.delta : Action σ Unit).runOn s = (.ok (), s) := by
  refine ⟨fun session => ?_, fun api session hreach => ?_, fun path flags resolved h σ s => ?_⟩
  · exact checksFirst_execute hload session (submits_store writing session.backend)
  · exact checksFirst_execute hload session (submits_remote writing api hreach)
  · exact ⟨runOn_requirePath_of_passes (passes_of_resolve h) s,
      runOn_requireImage_of_passes (passes_of_resolve h) s⟩

/-- Of a header without a name and a missing path the header is reported, and the store has seen
no call. -/
theorem faults_precede_backend_header :
    (Context.beside { name := some "acme/hello" }).Holds (some { name := some "acme/hello" }) ∧
      ((execute (Context.beside { name := some "acme/hello" }) Store.backend
          (.create "app" none none { config := ["A=1"], headers := ["=x"] })).runOn
            { backend := {} }).1 = .error (.operation (Literal.malformed .header "=x")) := by
  have hload := Context.holds_beside { name := some "acme/hello" }
  have hfault : (create "app" none none { config := ["A=1"], headers := ["=x"] }).fault?
      (some { name := some "acme/hello" }) = some (Literal.malformed .header "=x") := by decide
  have hfaulty : (create "app" none none { config := ["A=1"], headers := ["=x"] }).IsFaulty
      (some { name := some "acme/hello" }) :=
    Or.inr (Or.inl ⟨"=x", List.mem_cons_self, by decide⟩)
  have hchecks := (faults_precede_backend hload
    (.create "app" none none { config := ["A=1"], headers := ["=x"] })).1 { backend := {} }
  obtain ⟨e, he, hreported, -⟩ := hchecks.refuses hfaulty
  cases hfault.symm.trans he
  exact ⟨hload, hreported⟩

end Writing
end AppRoutes.Program
