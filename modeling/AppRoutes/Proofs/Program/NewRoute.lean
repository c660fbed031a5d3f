/-
What is submitted for a new route.

The flags go before the descriptor and the descriptor before the defaults, and the route that
is submitted has all of its attributes from them.  There is one gap between the two notions of
an open attribute: a descriptor that asks for a concurrency of zero counts as a source when the
defaults are filled in, but a zero is not submitted, so such a route has no concurrency at all.
-/
import AppRoutes.Proofs.Http.Operations
import AppRoutes.Proofs.Program.Writing
import AppRoutes.Proofs.Store.Submission

namespace AppRoutes

open Http

namespace Program

open AppRoutes.Action CommandLine

/-- A new route has what its delta sets, and leaves out a map without entries. -/
theorem build_eq (path : String) (delta : Delta) :
    Route.build path delta =
      { path := path
        image := (nonempty? delta.image).getD ""
        memory := (nonzero? delta.memory).getD 0
        type := delta.type
        format := (nonempty? delta.format).getD ""
        maxConcurrency := (nonzero? delta.maxConcurrency).getD 0
        timeout := delta.timeout
        config := Route.omitEmpty (some (merge ∅ delta.config))
        headers := Route.omitEmpty (some (merge ∅ delta.headers)) } := by
  rw [Route.build, Route.apply_eq, Option.or_none, Option.or_none]
  rfl

/-- The route has each attribute from the first of its sources. -/
structure Completes (path image : Option String) (fields : FieldFlags) (descriptor : Descriptor)
    (route : Route) : Prop where
  path : firstText? [path, descriptor.path] = some route.path
  image : firstText? [image, descriptor.fullName] = some route.image
  isNamed : route.path ≠ "" ∧ route.image ≠ ""
  memory : route.memory = fields.memory.getD 128 ∧ route.memory ≠ 0
  type : route.type = some (fields.type.getD .sync)
  format : route.format = (firstText? [fields.format, descriptor.format]).getD ""
  timeout : route.timeout =
    some (((fields.timeout.map fun d => UInt64.ofNat d.seconds).or descriptor.timeout).getD 30)
  config : ∃ entries, fields.config.mapM Literal.parseConfig = .ok entries ∧
    route.config = if (merge ∅ entries).isEmpty then none else some (merge ∅ entries)
  headers : ∃ entries, fields.headers.mapM Literal.parseHeader = .ok entries ∧
    route.headers = if (merge ∅ entries).isEmpty then none else some (merge ∅ entries)
  /-- A zero in the descriptor keeps the default away and is not submitted either. -/
  maxConcurrency : route.maxConcurrency =
    if fields.maxConcurrency = none ∧ descriptor.maxConcurrency = some 0 then 0
    else (fields.maxConcurrency.or (nonzero? descriptor.maxConcurrency)).getD 1

/-- The default is filled in before a zero is dropped. -/
theorem getD_nonzero?_concurrency {flag descriptor : Option UInt32} (hflag : flag ≠ some 0) :
    (nonzero? ((flag.or descriptor).or (some 1))).getD 0 =
      if flag = none ∧ descriptor = some 0 then 0
      else (flag.or (nonzero? descriptor)).getD 1 := by
  rw [Option.or_assoc, nonzero?_or_of_ne hflag, Option.getD_or, Option.getD_or]
  cases flag with
  | some n => rfl
  | none =>
    cases descriptor with
    | none => rfl
    | some n => by_cases hn : n = 0 <;> simp [nonzero?, hn]

/-- What is built from the flags, the descriptor and the defaults has all that they settle. -/
theorem completes_build (app : String) {key name : String} {path image : Option String}
    {fields : FieldFlags} {descriptor : Option Descriptor} {config : List (Entry String)}
    {headers : List (Entry (List String))}
    (hconfig : fields.config.mapM Literal.parseConfig = .ok config)
    (hheaders : fields.headers.mapM Literal.parseHeader = .ok headers)
    (hkey : firstText? [path, (descriptor.getD {}).path] = some key)
    (hname : firstText? [image, (descriptor.getD {}).fullName] = some name)
    (hmemory : fields.memory ≠ some 0) (hlimit : fields.maxConcurrency ≠ some 0) :
    Completes path image fields (descriptor.getD {})
      (Route.build key ((Writing.create app path image fields).settled descriptor
        ((Writing.create app path image fields).asked config headers))) := by
  have hkey' := ne_empty_of_firstText? hkey
  have hname' := ne_empty_of_firstText? hname
  have himage : (nonempty? (pickText image (descriptor.getD {}).fullName)).getD "" = name := by
    rw [pickText_eq, hname, nonempty?_of_ne_empty hname']
    rfl
  have hmemory' : fields.memory.getD 128 ≠ 0 := by
    cases h : fields.memory with
    | none => decide
    | some n => exact fun hn => hmemory (h.trans (congrArg some hn))
  rw [Writing.asked_create, build_eq]
  exact {
    path := hkey
    image := hname.trans (congrArg some himage.symm)
    isNamed := ⟨hkey', fun h => hname' (himage.symm.trans h)⟩
    memory := by
      have hvalue : (nonzero? (fields.memory.or (some 128))).getD 0 = fields.memory.getD 128 := by
        rw [nonzero?_or_of_ne hmemory, Option.getD_or]
        rfl
      exact ⟨hvalue, fun h => hmemory' (hvalue.symm.trans h)⟩
    type := Option.or_some
    format := by
      show (nonempty? (pickText fields.format (descriptor.getD {}).format)).getD "" = _
      rw [pickText_eq, nonempty?_firstText?]
    timeout := Option.or_some
    config := ⟨config, hconfig, rfl⟩
    headers := ⟨headers, hheaders, rfl⟩
    maxConcurrency := getD_nonzero?_concurrency hlimit }

theorem Completes.maxConcurrency_eq_zero_iff {path image : Option String} {fields : FieldFlags}
    {descriptor : Descriptor} {route : Route} (h : Completes path image fields descriptor route)
    (hlimit : fields.maxConcurrency ≠ some 0) :
    route.maxConcurrency = 0 ↔
      fields.maxConcurrency = none ∧ descriptor.maxConcurrency = some 0 := by
  rw [h.maxConcurrency]
  by_cases hgap : fields.maxConcurrency = none ∧ descriptor.maxConcurrency = some 0
  · rw [if_pos hgap]
    exact iff_of_true rfl hgap
  · rw [if_neg hgap]
    refine iff_of_false ?_ hgap
    cases hflag : fields.maxConcurrency with
    | some n => exact fun hn => hlimit (hflag.trans (congrArg some hn))
    | none =>
      have hdescriptor : descriptor.maxConcurrency ≠ some 0 := fun h => hgap ⟨hflag, h⟩
      rw [nonzero?_of_ne hdescriptor]
      cases hvalue : descriptor.maxConcurrency with
      | none => decide
      | some n => exact fun hn => hdescriptor (hvalue.trans (congrArg some hn))

/-- The gap is the one case in which the descriptor's zero does not count as open. -/
theorem Completes.maxConcurrency_eq_iff {path image : Option String} {fields : FieldFlags}
    {descriptor : Descriptor} {route : Route} (h : Completes path image fields descriptor route)
    (hlimit : fields.maxConcurrency ≠ some 0) :
    route.maxConcurrency =
        (fields.maxConcurrency.or (nonzero? descriptor.maxConcurrency)).getD 1 ↔
      ¬ (fields.maxConcurrency = none ∧ descriptor.maxConcurrency = some 0) := by
  constructor
  · rintro hvalue ⟨hflag, hdescriptor⟩
    have hzero := (h.maxConcurrency_eq_zero_iff hlimit).mpr ⟨hflag, hdescriptor⟩
    rw [hzero, hflag, hdescriptor] at hvalue
    exact absurd hvalue (by decide)
  · intro hgap
    rw [h.maxConcurrency, if_neg hgap]

theorem textMember_ne_nil {name value : String} (h : value ≠ "") : textMember name value ≠ [] := by
  rw [textMember, if_neg (Client.not_isEmpty_of_ne h)]
  exact List.cons_ne_nil _ _

theorem numberMember_ne_nil_iff {name : String} {value : Nat} :
    numberMember name value ≠ [] ↔ value ≠ 0 := by
  by_cases h : value = 0 <;> simp [numberMember, h]

/-- Every attribute that has a default stands in the payload, but for that one gap. -/
theorem keys_of_completes {path image : Option String} {fields : FieldFlags}
    {descriptor : Descriptor} {route : Route} (h : Completes path image fields descriptor route)
    (hlimit : fields.maxConcurrency ≠ some 0) :
    (∀ name ∈ ["path", "image", "memory", "type", "timeout"],
      some name ∈ route.members.map (fun member => some member.1)) ∧
    (some "max_concurrency" ∈ route.members.map (fun member => some member.1) ↔
      ¬ (fields.maxConcurrency = none ∧ descriptor.maxConcurrency = some 0)) := by
  have hpath : route.member .path ≠ [] := textMember_ne_nil h.isNamed.1
  have himage : route.member .image ≠ [] := textMember_ne_nil h.isNamed.2
  have hmemory : route.member .memory ≠ [] := numberMember_ne_nil_iff.mpr fun hzero =>
    h.memory.2 (UInt64.toNat_inj.mp hzero)
  have htype : route.member .type ≠ [] := by
    rw [Route.member, h.type]
    exact List.cons_ne_nil _ _
  have htimeout : route.member .timeout ≠ [] := by
    rw [Route.member, h.timeout]
    exact List.cons_ne_nil _ _
  constructor
  · simp only [List.forall_mem_cons]
    exact ⟨(route.name_mem_keys .path).mpr hpath, (route.name_mem_keys .image).mpr himage,
      (route.name_mem_keys .memory).mpr hmemory, (route.name_mem_keys .type).mpr htype,
      (route.name_mem_keys .timeout).mpr htimeout, List.forall_mem_nil _⟩
  · have hzero : route.maxConcurrency.toNat = 0 ↔ route.maxConcurrency = 0 :=
      ⟨fun h => UInt32.toNat_inj.mp h, fun h => congrArg UInt32.toNat h⟩
    have hkey : some "max_concurrency" ∈ route.members.map (fun member => some member.1) ↔
        route.member .maxConcurrency ≠ [] := route.name_mem_keys .maxConcurrency
    rw [hkey, ← h.maxConcurrency_eq_zero_iff hlimit, ← hzero]
    exact numberMember_ne_nil_iff

/-! ## The command -/

/-- A command for a new route without a fault leaves the backend as its submission does. -/
theorem backend_execute_create {σ : Type} {context : Context} {descriptor : Option Descriptor}
    (hload : context.Holds descriptor) {app : String} {path image : Option String}
    {fields : FieldFlags} {resolved : Resolved}
    (h : (Writing.create app path image fields).resolved descriptor = .ok resolved)
    (backend : Backend σ) (session : Session σ) :
    ((execute context backend (.create app path image fields)).runOn session).2.backend =
      ((Client.submitNew backend app resolved.path resolved.delta).runOn session.backend).2 := by
  have hbackend :=
    (Writing.performs_execute hload backend (.create app path image fields) session).2
  rw [Writing.runOn_run, h] at hbackend
  dsimp only at hbackend
  rw [Writing.runOn_submit_create (Writing.passes_of_resolved h)] at hbackend
  exact hbackend

/-- Where arguments without a fault are submitted, it is as one new route that has every
attribute from its sources; but a descriptor's zero concurrency is submitted as none, where
the default should stand. -/
theorem new_route_complete_but_for_zero {context : Context} {descriptor : Option Descriptor}
    (hload : context.Holds descriptor) (app : String) (path image : Option String)
    {fields : FieldFlags} (hmemory : fields.memory ≠ some 0)
    (hlimit : fields.maxConcurrency ≠ some 0)
    (hsound : ¬ (Writing.create app path image fields).IsFaulty descriptor) :
    ∃ route, Completes path image fields (descriptor.getD {}) route ∧
      (route.maxConcurrency =
          (fields.maxConcurrency.or (nonzero? (descriptor.getD {}).maxConcurrency)).getD 1 ↔
        ¬ (fields.maxConcurrency = none ∧ (descriptor.getD {}).maxConcurrency = some 0)) ∧
      (∀ session : Session Store,
        ((execute context Store.backend (.create app path image fields)).runOn
            session).2.backend.submissions = session.backend.submissions ++
            if (session.backend.failure? .create).isSome then []
            else [⟨.create, app, "", route⟩]) ∧
      ∀ (api : Api) (session : Session Exchange), session.backend.isReachable = true →
        ∃ request, ((execute context api.backend (.create app path image fields)).runOn
            session).2.backend.received = session.backend.received ++ [request] ∧
          request.Targets "POST" (api.routesUrl app) ∧ request.Carries route ∧
          ∃ keys, request.Lists keys ∧
            (∀ name ∈ ["path", "image", "memory", "type", "timeout"], some name ∈ keys) ∧
            (some "max_concurrency" ∈ keys ↔
              ¬ (fields.maxConcurrency = none ∧
                (descriptor.getD {}).maxConcurrency = some 0)) := by
  have hfault := (Writing.fault?_eq_none_iff _ _).mpr hsound
  obtain ⟨config, headers, key, hconfig, hheaders, hkey, hname, hresolved⟩ :=
    Writing.resolved_of_fault?_eq_none hfault
  obtain ⟨name, hname⟩ := hname rfl
  have hroute := completes_build app hconfig hheaders hkey hname hmemory hlimit
  refine ⟨_, hroute, hroute.maxConcurrency_eq_iff hlimit, fun session => ?_,
    fun api session hreach => ?_⟩
  · rw [backend_execute_create hload hresolved]
    exact Store.submissions_submitNew app key _ session.backend
  · rw [backend_execute_create hload hresolved]
    exact ⟨_, api.received_submitNew app key _ hreach, ⟨rfl, rfl⟩,
      carries_body (api.body_createRequest app _), _,
      lists_body (api.body_createRequest app _), keys_of_completes hroute hlimit⟩

/-- A descriptor that says nothing of concurrency leads to a route with the default. -/
theorem new_route_complete_but_for_zero_open :
    (Context.beside { name := some "img", path := some "/p" }).Holds
        (some { name := some "img", path := some "/p" }) ∧
      ({} : FieldFlags).memory ≠ some 0 ∧ ({} : FieldFlags).maxConcurrency ≠ some 0 ∧
      ¬ (Writing.create "app" none none {}).IsFaulty
        (some { name := some "img", path := some "/p" }) ∧
      ∃ route, ((execute (Context.beside { name := some "img", path := some "/p" })
          Store.backend (.create "app" none none {})).runOn
            { backend := {} }).2.backend.submissions = [⟨.create, "app", "", route⟩] ∧
        route.maxConcurrency = 1 := by
  have hload := Context.holds_beside { name := some "img", path := some "/p" }
  have hmemory : ({} : FieldFlags).memory ≠ some 0 := nofun
  have hlimit : ({} : FieldFlags).maxConcurrency ≠ some 0 := nofun
  have hsound := (Writing.fault?_eq_none_iff (.create "app" none none {})
    (some { name := some "img", path := some "/p" })).mp rfl
  obtain ⟨route, -, hvalue, hstore, -⟩ :=
    new_route_complete_but_for_zero hload "app" none none hmemory hlimit hsound
  exact ⟨hload, hmemory, hlimit, hsound, route, hstore { backend := {} },
    hvalue.mpr fun hgap => nomatch hgap.2⟩

/-- A descriptor with a concurrency of zero leads to a route without one, not to the default. -/
theorem zero_concurrency_is_not_defaulted :
    ∃ route, ((execute
        (Context.beside { name := some "img", path := some "/p", maxConcurrency := some 0 })
        Store.backend (.create "app" none none {})).runOn { backend := {} }).2.backend.submissions =
          [⟨.create, "app", "", route⟩] ∧
      route.maxConcurrency ≠ (Option.or none (nonzero? (some 0))).getD 1 := by
  let descriptor : Descriptor :=
    { name := some "img", path := some "/p", maxConcurrency := some 0 }
  let delta : Delta :=
    { image := some "img", memory := some 128, type := some .sync, maxConcurrency := some 0
      timeout := some 30 }
  have hresolved : (Writing.create "app" none none {}).resolved (some descriptor) =
      .ok ⟨"/p", delta⟩ := rfl
  refine ⟨Route.build "/p" delta, ?_, by decide⟩
  rw [backend_execute_create (Context.holds_beside descriptor) hresolved,
    Store.submissions_submitNew]
  rfl

end Program
end AppRoutes
