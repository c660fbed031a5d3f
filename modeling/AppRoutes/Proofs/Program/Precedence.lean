/-
Which source an update takes each attribute from.

The flags go before the descriptor and the descriptor before the stored route.  The command
sorts out the first two and the update the last, each with a notion of its own of what counts
as set; for every attribute the two come to one order of the three sources.
-/
import AppRoutes.Proofs.Program.Writing
import AppRoutes.Proofs.Store.Submission

namespace AppRoutes.Program

open AppRoutes.Action AppRoutes.Directory CommandLine

/-- The route that is kept has each attribute from the first of its sources, where `remote` is
the stored route; what has no default on a server keeps its value. -/
structure Supersedes (arguments : UpdateArguments) (descriptor : Descriptor)
    (remote kept : Route) : Prop where
  image : kept.image = (firstText? [arguments.image.or arguments.imageFlag, descriptor.fullName,
    some remote.image]).getD ""
  format : kept.format =
    (firstText? [arguments.fields.format, descriptor.format, some remote.format]).getD ""
  maxConcurrency : kept.maxConcurrency = (arguments.fields.maxConcurrency.or
    (nonzero? descriptor.maxConcurrency)).getD remote.maxConcurrency
  timeout : kept.timeout = (arguments.fields.timeout.map fun d => UInt64.ofNat d.seconds).or
    (descriptor.timeout.or remote.timeout)
  memory : kept.memory = arguments.fields.memory.getD remote.memory
  type : kept.type = arguments.fields.type.or remote.type
  config : ∃ entries, arguments.fields.config.mapM Literal.parseConfig = .ok entries ∧
    kept.config = some (merge (remote.config.getD ∅)
      (entries ++ arguments.unsetConfig.map Entry.delete))
  headers : ∃ entries, arguments.fields.headers.mapM Literal.parseHeader = .ok entries ∧
    kept.headers = some (merge (remote.headers.getD ∅)
      (entries ++ arguments.unsetHeader.map Entry.delete))

theorem supersedes_merged {arguments : UpdateArguments} {descriptor : Option Descriptor}
    {config : List (Entry String)} {headers : List (Entry (List String))}
    (hconfig : arguments.fields.config.mapM Literal.parseConfig = .ok config)
    (hheaders : arguments.fields.headers.mapM Literal.parseHeader = .ok headers)
    (hmemory : arguments.fields.memory ≠ some 0)
    (hlimit : arguments.fields.maxConcurrency ≠ some 0) (app path : String) (remote : Route) :
    Supersedes arguments (descriptor.getD {}) remote
      (keep app path (Client.merged remote (some ((Writing.update arguments).settled descriptor
        ((Writing.update arguments).asked config headers))))) := by
  have htext : ∀ (flag source : Option String) (last : String),
      (nonempty? (pickText flag source)).getD last =
        (firstText? [flag, source, some last]).getD "" := fun flag source last => by
    rw [pickText_eq, nonempty?_firstText?, ← getD_firstText?_concat]
    rfl
  rw [Client.merged, Route.apply_eq]
  exact {
    image := htext _ _ remote.image
    format := htext _ _ remote.format
    maxConcurrency := congrArg (·.getD remote.maxConcurrency) (nonzero?_or_of_ne hlimit _)
    timeout := Option.or_assoc
    memory := congrArg (·.getD remote.memory) (nonzero?_of_ne hmemory)
    type := rfl
    config := ⟨config, hconfig, rfl⟩
    headers := ⟨headers, hheaders, rfl⟩ }

/-- An update of a store that does not fail reports the first fault of its arguments and leaves
the store alone, or it updates the route under the first path that is named: there and nowhere
else, and with each attribute from the first of its sources. -/
theorem update_takes_first_source {context : Context} {descriptor : Option Descriptor}
    (hload : context.Holds descriptor) {arguments : UpdateArguments}
    (hmemory : arguments.fields.memory ≠ some 0)
    (hlimit : arguments.fields.maxConcurrency ≠ some 0) (session : Session Store)
    (hfailures : session.backend.failures = []) :
    (∀ e, (Writing.update arguments).fault? descriptor = some e →
      ((execute context Store.backend (.update arguments)).runOn session).1 =
          .error (.operation e) ∧
        ((execute context Store.backend (.update arguments)).runOn session).2.backend =
          session.backend) ∧
    ((Writing.update arguments).fault? descriptor = none →
      ∃ key, firstText? [arguments.path, (descriptor.getD {}).path] = some key ∧
        ∀ remote, session.backend.route? arguments.app key = some remote →
          ((execute context Store.backend (.update arguments)).runOn session).1 = .ok () ∧
          ∃ kept, Supersedes arguments (descriptor.getD {}) remote kept ∧
            Binds arguments.app key (some kept) session.backend.directory
              ((execute context Store.backend (.update arguments)).runOn
                session).2.backend.directory) := by
  obtain ⟨hresult, hbackend⟩ :=
    Writing.performs_execute hload Store.backend (.update arguments) session
  rw [Writing.runOn_run] at hresult hbackend
  constructor
  · intro e hfault
    rw [Writing.resolved_of_fault? hfault] at hresult hbackend
    exact ⟨hresult, hbackend⟩
  · intro hfault
    obtain ⟨config, headers, key, hconfig, hheaders, hkey, -, hresolved⟩ :=
      Writing.resolved_of_fault?_eq_none hfault
    rw [hresolved] at hresult hbackend
    dsimp only [Writing.submit] at hresult hbackend
    rw [runOn_discard] at hresult hbackend
    refine ⟨key, hkey, fun remote hremote => ?_⟩
    obtain ⟨hstored, hbinds⟩ := Store.runOn_patch_of_route? (ne_empty_of_firstText? hkey)
      hfailures hremote (some ((Writing.update arguments).settled descriptor
        ((Writing.update arguments).asked config headers)))
    rw [hstored] at hresult
    refine ⟨hresult, _, supersedes_merged hconfig hheaders hmemory hlimit
      arguments.app key remote, ?_⟩
    have hdirectory : ((execute context Store.backend (.update arguments)).runOn
        session).2.backend.directory = _ := congrArg Store.directory hbackend
    rw [hdirectory]
    exact hbinds

/-- A stored route keeps its image and its memory, takes its concurrency from the flags and a
timeout of zero from the descriptor. -/
theorem update_takes_first_source_hello :
    (Context.beside { path := some "/hello", timeout := some 0 }).Holds
        (some { path := some "/hello", timeout := some 0 }) ∧
      ∃ kept, ((execute (Context.beside { path := some "/hello", timeout := some 0 }) Store.backend
          (.update ⟨"app", none, none, none, { maxConcurrency := some 2 }, [], []⟩)).runOn
            { backend := ({} : Store).addRoute "app"
                { path := "/hello", image := "img", memory := 256, timeout := some 10 } }
          ).2.backend.route? "app" "/hello" = some kept ∧
        kept.image = "img" ∧ kept.memory = 256 ∧ kept.maxConcurrency = 2 ∧
        kept.timeout = some 0 := by
  have hload := Context.holds_beside { path := some "/hello", timeout := some 0 }
  obtain ⟨-, hupdates⟩ := update_takes_first_source hload
    (by decide : (⟨"app", none, none, none, { maxConcurrency := some 2 }, [], []⟩ :
      UpdateArguments).fields.memory ≠ some 0) (by decide)
    { backend := ({} : Store).addRoute "app"
        { path := "/hello", image := "img", memory := 256, timeout := some 10 } } rfl
  obtain ⟨key, hkey, hstored⟩ := hupdates rfl
  obtain rfl : "/hello" = key := Option.some.inj hkey
  obtain ⟨-, kept, hkept, hbinds⟩ := hstored (keep "app" "/hello"
    { path := "/hello", image := "img", memory := 256, timeout := some 10 }) rfl
  exact ⟨hload, kept, hbinds.atKey, hkept.image, hkept.memory, hkept.maxConcurrency, hkept.timeout⟩

end AppRoutes.Program
