/-
Commands that submit a route.

Both commands go the same way: they read their flags, complete them from the local descriptor
and hand path and changes to the client.  What stops them on this way is a fault of the
arguments, and `fault?` names the first one; a command without a fault submits the delta that
its flags and the descriptor come to.
-/
import AppRoutes.Proofs.Client
import AppRoutes.Proofs.Delta.Literal
import AppRoutes.Proofs.Delta.Resolve
import AppRoutes.Proofs.Http.Exchange
import AppRoutes.Proofs.Program.Handler

namespace AppRoutes.Program

open AppRoutes.Action CommandLine Handler

/-- A command that submits a route, with its words. -/
inductive Writing where
  | create (app : String) (path image : Option String) (fields : FieldFlags)
  | update (arguments : UpdateArguments)

namespace Writing

def command : Writing → Command
  | .create app path image fields => .create app path image fields
  | .update arguments => .update arguments

def mode : Writing → Mode
  | .create .. => .create
  | .update _ => .update

def app : Writing → String
  | .create app .. => app
  | .update arguments => arguments.app

def path : Writing → Option String
  | .create _ path .. => path
  | .update arguments => arguments.path

/-- The image, by position or as a flag. -/
def image : Writing → Option String
  | .create _ _ image _ => image
  | .update arguments => arguments.image.or arguments.imageFlag

def fields : Writing → FieldFlags
  | .create _ _ _ fields => fields
  | .update arguments => arguments.fields

def unsetConfig : Writing → List String
  | .create .. => []
  | .update arguments => arguments.unsetConfig

def unsetHeader : Writing → List String
  | .create .. => []
  | .update arguments => arguments.unsetHeader

/-- The flags as changes. -/
def flags : Writing → Except Error Delta
  | .create _ _ image fields => fields.toDelta image
  | .update arguments => arguments.toDelta

/-- What the flags and the descriptor come to. -/
def resolved (writing : Writing) (descriptor : Option Descriptor) : Except Error Resolved := do
  resolve writing.mode writing.path (← writing.flags) descriptor

/-- What the client is asked to do. -/
def submit {σ : Type} (backend : Backend σ) (resolved : Resolved) : Writing → Action σ Unit
  | .create app .. => discard (Client.create backend app resolved.path resolved.delta)
  | .update arguments =>
    discard (Client.patch backend arguments.app resolved.path (some resolved.delta))

def run {σ : Type} (backend : Backend σ) (descriptor : Option Descriptor) (writing : Writing) :
    Action σ Unit := do
  writing.submit backend (← Http.lift (writing.resolved descriptor))

theorem runOn_run {σ : Type} (backend : Backend σ) (descriptor : Option Descriptor)
    (writing : Writing) (s : σ) :
    (writing.run backend descriptor).runOn s =
      match writing.resolved descriptor with
      | .ok resolved => (writing.submit backend resolved).runOn s
      | .error e => (.error e, s) := by
  rw [run, Action.runOn_bind, Http.runOn_lift]
  cases writing.resolved descriptor <;> rfl

theorem runOn_requirePath_of_passes {σ : Type} {mode : Mode} {resolved : Resolved}
    (h : resolved.Passes mode) (s : σ) :
    (Client.requirePath resolved.path : Action σ Unit).runOn s = (.ok (), s) := by
  rw [Client.runOn_requirePath, if_neg (Client.not_isEmpty_of_ne h.path)]

theorem runOn_requireImage_of_passes {σ : Type} {resolved : Resolved} (h : resolved.Passes .create)
    (s : σ) : (Client.requireImage resolved.delta : Action σ Unit).runOn s = (.ok (), s) := by
  have himage : ¬ (nonempty? resolved.delta.image).isNone = true := by
    rw [← Option.not_isSome, h.image rfl]
    decide
  rw [Client.runOn_requireImage, if_neg himage]

/-- A new route that passes the checks of the client is submitted. -/
theorem runOn_submit_create {σ : Type} {backend : Backend σ} {app : String}
    {path image : Option String} {fields : FieldFlags} {resolved : Resolved}
    (h : resolved.Passes .create) (s : σ) :
    ((create app path image fields).submit backend resolved).runOn s =
      (((Client.submitNew backend app resolved.path resolved.delta).runOn s).1.map (fun _ => ()),
        ((Client.submitNew backend app resolved.path resolved.delta).runOn s).2) := by
  rw [submit, runOn_discard]
  have hcreate : (Client.create backend app resolved.path resolved.delta).runOn s =
      (Client.submitNew backend app resolved.path resolved.delta).runOn s := by
    show (do
      Client.requirePath resolved.path
      Client.requireImage resolved.delta
      Client.submitNew backend app resolved.path resolved.delta : Action σ Route).runOn s = _
    rw [runOn_bind_of_ok (runOn_requirePath_of_passes h s),
      runOn_bind_of_ok (runOn_requireImage_of_passes h s)]
  rw [hcreate]

/-- What a command does besides submitting is done without the backend. -/
theorem performs_execute {σ : Type} {context : Context} {descriptor : Option Descriptor}
    (hload : context.Holds descriptor) (backend : Backend σ) (writing : Writing) :
    Performs (execute context backend writing.command) (writing.run backend descriptor) := by
  -- Flags are read before the descriptor is looked for and completed after it, so the two parts
  -- of `resolved` are taken apart before they are matched with the steps of the command.
  rw [run, resolved, Http.lift_bind, bind_assoc]
  cases writing with
  | create app path image fields =>
    have hsubmit := fun flags found =>
      performs_bind (performs_check (resolve .create path flags found)) fun resolved =>
        performs_bind (performs_operate
          (Client.create backend app resolved.path resolved.delta)) fun route =>
        performs_say context .success (route.path ++ " created with " ++ route.image)
    exact performs_bind (performs_check (fields.toDelta image)) fun flags =>
      performs_bind (performs_localDescriptor hload) (hsubmit flags)
  | update arguments =>
    have hsubmit := fun flags found =>
      performs_bind (performs_check (resolve .update arguments.path flags found)) fun resolved =>
        performs_bind (performs_operate
          (Client.patch backend arguments.app resolved.path (some resolved.delta))) fun _ =>
        performs_say context .success (arguments.app ++ " " ++ resolved.path ++ " updated")
    exact performs_bind (performs_check arguments.toDelta) fun flags =>
      performs_bind (performs_localDescriptor hload) fun found =>
        performs_ite (performs_bind (performs_say context _ _) fun _ => hsubmit flags found)
          (hsubmit flags found)

/-- A command that succeeds has found out what stands in the working directory. -/
theorem exists_holds_of_ok {σ : Type} {context : Context} {backend : Backend σ}
    {session : Session σ} (writing : Writing)
    (h : ((execute context backend writing.command).runOn session).1 = .ok ()) :
    ∃ descriptor, context.Holds descriptor := by
  have hfound : ∃ session descriptor after,
      (localDescriptor context : Handler σ (Option Descriptor)).runOn session =
        (.ok descriptor, after) := by
    cases writing with
    | create | update =>
      obtain ⟨_, flagged, -, hrest⟩ := ok_of_runOn_bind h
      obtain ⟨descriptor, after, hfound, -⟩ := ok_of_runOn_bind hrest
      exact ⟨flagged, descriptor, after, hfound⟩
  obtain ⟨session, descriptor, after, hfound⟩ := hfound
  refine ⟨descriptor, ?_⟩
  rw [Context.Holds]
  cases hload : Descriptor.load context.files context.files.workingDirectory with
  | ok found =>
    rw [localDescriptor, hload] at hfound
    cases hfound
    rfl
  | error e =>
    rw [localDescriptor, hload] at hfound
    cases hfound

/-- The path that the arguments and the descriptor name. -/
def key? (writing : Writing) (descriptor : Option Descriptor) : Option String :=
  firstText? [writing.path, (descriptor.getD {}).path]

/-- The image that the arguments and the descriptor name. -/
def imageName? (writing : Writing) (descriptor : Option Descriptor) : Option String :=
  firstText? [writing.image, (descriptor.getD {}).fullName]

/-- What is wrong with the literals, those for the configuration first. -/
def literalFault? (writing : Writing) : Option Error :=
  (Literal.fault? .config writing.fields.config).or
    (Literal.fault? .header writing.fields.headers)

/-- The first fault of the arguments: a literal, the path, and for a new route the image. -/
def fault? (writing : Writing) (descriptor : Option Descriptor) : Option Error :=
  writing.literalFault?.or <|
    if writing.key? descriptor = none then some missingPath
    else if writing.mode = .create ∧ writing.imageName? descriptor = none then some missingImage
    else none

/-- A literal names nothing, no source names a path, or none names an image for a new route. -/
def IsFaulty (writing : Writing) (descriptor : Option Descriptor) : Prop :=
  (∃ literal ∈ writing.fields.config, Literal.IsMalformed literal) ∨
    (∃ literal ∈ writing.fields.headers, Literal.IsMalformed literal) ∨
    (∀ path, some path ∈ [writing.path, (descriptor.getD {}).path] → path = "") ∨
    (writing.mode = .create ∧
      ∀ image, some image ∈ [writing.image, (descriptor.getD {}).fullName] → image = "")

/-- There is a fault to report exactly if the arguments are faulty. -/
theorem fault?_eq_none_iff (writing : Writing) (descriptor : Option Descriptor) :
    writing.fault? descriptor = none ↔ ¬ writing.IsFaulty descriptor := by
  have hliteral : writing.literalFault? = none ↔
      (∀ literal ∈ writing.fields.config, ¬ Literal.IsMalformed literal) ∧
        ∀ literal ∈ writing.fields.headers, ¬ Literal.IsMalformed literal := by
    rw [literalFault?, Option.or_eq_none_iff, Literal.fault?_eq_none_iff,
      Literal.fault?_eq_none_iff]
  rw [fault?, Option.or_eq_none_iff, hliteral, IsFaulty, ← firstText?_eq_none_iff,
    ← firstText?_eq_none_iff, ← key?, ← imageName?]
  by_cases hkey : writing.key? descriptor = none
  · simp [hkey]
  · by_cases himage : writing.mode = .create ∧ writing.imageName? descriptor = none
    · simp [hkey, himage]
    · simp [hkey, himage]

/-- The changes that the flags ask for, with the literals read. -/
def asked (writing : Writing) (config : List (Entry String))
    (headers : List (Entry (List String))) : Delta where
  image := writing.image
  memory := writing.fields.memory
  type := writing.fields.type
  format := writing.fields.format
  maxConcurrency := writing.fields.maxConcurrency
  timeout := writing.fields.timeout.map (fun d => UInt64.ofNat d.seconds)
  config := config ++ writing.unsetConfig.map Entry.delete
  headers := headers ++ writing.unsetHeader.map Entry.delete

/-- A new route has nothing to unset. -/
theorem asked_create (app : String) (path image : Option String) (fields : FieldFlags)
    (config : List (Entry String)) (headers : List (Entry (List String))) :
    (create app path image fields).asked config headers =
      { image := image, memory := fields.memory, type := fields.type, format := fields.format
        maxConcurrency := fields.maxConcurrency
        timeout := fields.timeout.map (fun d => UInt64.ofNat d.seconds)
        config := config, headers := headers } := by
  simp [asked, unsetConfig, unsetHeader, Writing.image, Writing.fields]

/-- The changes that are submitted: the flags completed, with defaults for a new route. -/
def settled (writing : Writing) (descriptor : Option Descriptor) (asked : Delta) : Delta :=
  match writing.mode with
  | .create => (asked.complete (descriptor.getD {})).withDefaults
  | .update => asked.complete (descriptor.getD {})

theorem toDelta_of_fault {fields : FieldFlags} {image : Option String} {e : Error}
    (h : (Literal.fault? .config fields.config).or (Literal.fault? .header fields.headers) =
      some e) : fields.toDelta image = .error e := by
  unfold FieldFlags.toDelta
  cases hconfig : Literal.fault? .config fields.config with
  | some e' =>
    rw [hconfig] at h
    rw [Literal.guards_parseConfig.mapM_of_fault?_eq_some hconfig]
    exact congrArg Except.error (Option.some.inj h)
  | none =>
    rw [hconfig, Option.none_or] at h
    obtain ⟨config, hvalues⟩ := Literal.guards_parseConfig.mapM_of_fault?_eq_none hconfig
    rw [hvalues, Literal.guards_parseHeader.mapM_of_fault?_eq_some h]
    rfl

theorem toDelta_of_read {fields : FieldFlags} {config : List (Entry String)}
    {headers : List (Entry (List String))}
    (hconfig : fields.config.mapM Literal.parseConfig = .ok config)
    (hheaders : fields.headers.mapM Literal.parseHeader = .ok headers) (image : Option String) :
    fields.toDelta image =
      .ok { image := image, memory := fields.memory, type := fields.type, format := fields.format
            maxConcurrency := fields.maxConcurrency
            timeout := fields.timeout.map (fun d => UInt64.ofNat d.seconds)
            config := config, headers := headers } := by
  rw [FieldFlags.toDelta, hconfig, hheaders]
  rfl

theorem flags_of_literalFault? {writing : Writing} {e : Error}
    (h : writing.literalFault? = some e) : writing.flags = .error e := by
  cases writing with
  | create app path image fields => exact toDelta_of_fault h
  | update arguments =>
    have hfields : arguments.fields.toDelta (arguments.image.or arguments.imageFlag) = .error e :=
      toDelta_of_fault h
    rw [flags, UpdateArguments.toDelta, hfields]
    rfl

theorem flags_of_literalFault?_eq_none {writing : Writing} (h : writing.literalFault? = none) :
    ∃ config headers, writing.fields.config.mapM Literal.parseConfig = .ok config ∧
      writing.fields.headers.mapM Literal.parseHeader = .ok headers ∧
      writing.flags = .ok (writing.asked config headers) := by
  obtain ⟨hconfig, hheaders⟩ := Option.or_eq_none_iff.mp h
  obtain ⟨config, hconfig⟩ := Literal.guards_parseConfig.mapM_of_fault?_eq_none hconfig
  obtain ⟨headers, hheaders⟩ := Literal.guards_parseHeader.mapM_of_fault?_eq_none hheaders
  refine ⟨config, headers, hconfig, hheaders, ?_⟩
  cases writing with
  | create app path image fields =>
    rw [asked_create]
    exact toDelta_of_read hconfig hheaders image
  | update arguments =>
    have hfields : arguments.fields.toDelta (arguments.image.or arguments.imageFlag) = _ :=
      toDelta_of_read hconfig hheaders _
    rw [flags, UpdateArguments.toDelta, hfields]
    rfl

/-! ## Resolving -/

theorem resolved_of_flags {writing : Writing} {flags : Delta} (h : writing.flags = .ok flags)
    (descriptor : Option Descriptor) :
    writing.resolved descriptor = resolve writing.mode writing.path flags descriptor := by
  rw [resolved, h]
  rfl

theorem passes_of_resolved {writing : Writing} {descriptor : Option Descriptor}
    {resolved : Resolved} (h : writing.resolved descriptor = .ok resolved) :
    resolved.Passes writing.mode := by
  cases hflags : writing.flags with
  | error e =>
    rw [Writing.resolved, hflags] at h
    cases h
  | ok flags =>
    rw [resolved_of_flags hflags] at h
    exact passes_of_resolve h

/-- The first fault of the arguments stops the command. -/
theorem resolved_of_fault? {writing : Writing} {descriptor : Option Descriptor} {e : Error}
    (h : writing.fault? descriptor = some e) : writing.resolved descriptor = .error e := by
  rw [fault?] at h
  -- The cases follow the order in which faults are looked for.
  cases hliteral : writing.literalFault? with
  | some e' =>
    rw [hliteral] at h
    rw [resolved, flags_of_literalFault? hliteral]
    exact congrArg Except.error (Option.some.inj h)
  | none =>
    obtain ⟨config, headers, -, -, hflags⟩ := flags_of_literalFault?_eq_none hliteral
    rw [hliteral, Option.none_or] at h
    rw [resolved_of_flags hflags, resolve_eq]
    cases hkey : firstText? [writing.path, (descriptor.getD {}).path] with
    | none =>
      rw [key?, if_pos hkey] at h
      exact congrArg Except.error (Option.some.inj h)
    | some key =>
      have hsome : ¬ writing.key? descriptor = none := by simp [key?, hkey]
      rw [if_neg hsome] at h
      split at h
      · rename_i himage
        have himage' : firstText? [(writing.asked config headers).image,
            (descriptor.getD {}).fullName] = none := himage.2
        rw [himage.1, himage']
        exact congrArg Except.error (Option.some.inj h)
      · cases h

/-- Without a fault there is a path, there is an image for a new route, and the changes are
those that the flags and the descriptor come to. -/
theorem resolved_of_fault?_eq_none {writing : Writing} {descriptor : Option Descriptor}
    (h : writing.fault? descriptor = none) :
    ∃ config headers key, writing.fields.config.mapM Literal.parseConfig = .ok config ∧
      writing.fields.headers.mapM Literal.parseHeader = .ok headers ∧
      writing.key? descriptor = some key ∧
      (writing.mode = .create → ∃ image, writing.imageName? descriptor = some image) ∧
      writing.resolved descriptor =
        .ok ⟨key, writing.settled descriptor (writing.asked config headers)⟩ := by
  obtain ⟨hliteral, hrest⟩ := Option.or_eq_none_iff.mp h
  obtain ⟨config, headers, hconfig, hheaders, hflags⟩ := flags_of_literalFault?_eq_none hliteral
  cases hkey : writing.key? descriptor with
  | none =>
    rw [if_pos hkey] at hrest
    cases hrest
  | some key =>
    have hsome : ¬ writing.key? descriptor = none := by simp [hkey]
    rw [if_neg hsome] at hrest
    rw [key?] at hkey
    refine ⟨config, headers, key, hconfig, hheaders, rfl, fun hmode => ?_, ?_⟩
    · cases himage : writing.imageName? descriptor with
      | some image => exact ⟨image, rfl⟩
      | none =>
        rw [if_pos ⟨hmode, himage⟩] at hrest
        cases hrest
    · rw [resolved_of_flags hflags, resolve_eq, hkey, settled]
      cases hmode : writing.mode with
      | update => rfl
      | create =>
        cases himage : firstText? [(writing.asked config headers).image,
            (descriptor.getD {}).fullName] with
        | some image => rfl
        | none =>
          rw [if_pos ⟨hmode, himage⟩] at hrest
          cases hrest

end Writing
end AppRoutes.Program
