/-
Whole seconds, wherever a timeout is written.

A timeout stands as a number or a text in a func file, or as a text on the command line.  All of
these texts are read in one way, so what a text stands for is settled there: `StandsFor` says
what follows from it for descriptors and for submitted routes.
-/
import AppRoutes.Program.Run
import AppRoutes.Proofs.CommandLine.Timeout
import AppRoutes.Proofs.Duration.Seconds
import AppRoutes.Proofs.Program.Writing
import AppRoutes.Proofs.Store.Submission

namespace AppRoutes

open CommandLine

/-- The command that submits a route in a mode. -/
def Mode.commandName : Mode → CommandName
  | .create => .routesCreate
  | .update => .routesUpdate

theorem Mode.commandName_mem_children (mode : Mode) :
    mode.commandName ∈ CommandName.routes.children := by
  cases mode <;> decide

theorem Mode.children_commandName (mode : Mode) : mode.commandName.children = [] := by
  cases mode <;> rfl

namespace Program

theorem exists_writing_of_ofLevel {mode : Mode} {level : Level} {command : Command}
    (h : Command.ofLevel mode.commandName level = .ok command) :
    ∃ writing : Writing, command = writing.command ∧ writing.fields = level.fields := by
  cases mode with
  | create =>
    cases hwords : level.words with
    | nil =>
      simp only [Mode.commandName, Command.ofLevel, hwords] at h
      cases h
    | cons app rest =>
      simp only [Mode.commandName, Command.ofLevel, hwords] at h
      cases h
      exact ⟨.create app rest[0]? rest[1]? level.fields, rfl, rfl⟩
  | update =>
    obtain ⟨app, rest, -, rfl⟩ := ofLevel_routesUpdate_eq_ok h
    exact ⟨.update _, rfl, rfl⟩

/-- A command line with a timeout comes to a command with that timeout. -/
theorem exists_writing_of_parse {mode : Mode} {word : String}
    (hword : word ∈ mode.commandName.words) {front rest : List Item} {text : String}
    {words : List String}
    (hwords : Spells mode.commandName (front ++ .option .timeout text :: rest) words)
    {arguments : Arguments} (hparse : parse ("routes" :: word :: words) = .ok arguments) :
    ∃ (writing : Writing) (d : Duration), arguments.command = writing.command ∧
      Duration.parse text = .ok d ∧ writing.fields.timeout = some d := by
  have hsome :=
    parse_routes mode.commandName_mem_children mode.children_commandName hword hwords
  rw [hparse] at hsome
  obtain ⟨level, hlevel, hmap⟩ := Option.bind_eq_some_iff.mp hsome.symm
  obtain ⟨command, hcommand, rfl⟩ := Option.map_eq_some_iff.mp hmap
  obtain ⟨d, hd, htimeout⟩ := Level.exists_timeout_of_takeAll (toOption_eq_some_iff.mp hlevel)
  obtain ⟨writing, hwriting, hfields⟩ :=
    exists_writing_of_ofLevel (toOption_eq_some_iff.mp hcommand)
  exact ⟨writing, d, hwriting, hd, hfields ▸ htimeout⟩

namespace Writing

/-- A timeout on the command line goes before every other one. -/
theorem timeout_of_resolved {writing : Writing} {descriptor : Option Descriptor}
    {resolved : Resolved} (h : writing.resolved descriptor = .ok resolved) {d : Duration}
    (htimeout : writing.fields.timeout = some d) :
    resolved.delta.timeout = some (UInt64.ofNat d.seconds) := by
  cases hfault : writing.fault? descriptor with
  | some e =>
    rw [resolved_of_fault? hfault] at h
    cases h
  | none =>
    obtain ⟨config, headers, key, -, -, -, -, hresolved⟩ := resolved_of_fault?_eq_none hfault
    cases hresolved.symm.trans h
    have hasked : (writing.asked config headers).timeout = some (UInt64.ofNat d.seconds) :=
      congrArg (Option.map fun d : Duration => UInt64.ofNat d.seconds) htimeout
    cases writing with
    | create | update => simp [settled, mode, Delta.complete, Delta.withDefaults, hasked]

theorem exists_ok_of_discarded {α : Type} {outcome : Except Error α}
    (h : (outcome.map fun _ => ()).mapError Failure.operation = .ok ()) :
    ∃ a, outcome = .ok a := by
  cases outcome with
  | error e => cases h
  | ok a => exact ⟨a, rfl⟩

/-- A command that succeeds submits one route, with the timeout of its flag. -/
theorem submits_timeout {context : Context} {session : Session Store} {writing : Writing}
    (h : ((execute context Store.backend writing.command).runOn session).1 = .ok ())
    {d : Duration} (htimeout : writing.fields.timeout = some d) :
    ∃ submission, ((execute context Store.backend writing.command).runOn
        session).2.backend.submissions = session.backend.submissions ++ [submission] ∧
      submission.route.timeout = some (UInt64.ofNat d.seconds) := by
  obtain ⟨descriptor, hload⟩ := writing.exists_holds_of_ok h
  obtain ⟨hresult, hbackend⟩ := performs_execute hload Store.backend writing session
  rw [runOn_run] at hresult hbackend
  cases hresolved : writing.resolved descriptor with
  | error e =>
    rw [hresolved] at hresult
    cases h.symm.trans hresult
  | ok resolved =>
    have hpasses := passes_of_resolved hresolved
    have hdelta := timeout_of_resolved hresolved htimeout
    rw [hresolved] at hresult hbackend
    dsimp only at hresult hbackend
    rw [h] at hresult
    rw [hbackend]
    cases writing with
    | create app path image fields =>
      rw [runOn_submit_create hpasses] at hresult ⊢
      obtain ⟨route, hroute⟩ := exists_ok_of_discarded hresult.symm
      refine ⟨_, Store.submissions_of_submitNew_ok hroute, ?_⟩
      show resolved.delta.timeout.or _ = _
      rw [hdelta, Option.some_or]
    | update arguments =>
      rw [submit, Action.runOn_discard] at hresult ⊢
      obtain ⟨kept, hkept⟩ := exists_ok_of_discarded hresult.symm
      obtain ⟨remote, -, hsubmissions⟩ := Store.submissions_of_patch_ok hkept
      refine ⟨_, hsubmissions, ?_⟩
      show resolved.delta.timeout.or _ = _
      rw [hdelta, Option.some_or]

end Writing

/-! ## Texts that stand for whole seconds -/

/-- The text stands for `n` seconds: read as a duration, in a func file, and on the command line
of either mode, where it is accepted and does what the bare number is and does. -/
structure StandsFor (text : String) (n : UInt64) : Prop where
  parse : ∃ d, Duration.parse text = .ok d ∧ d.seconds = n.toNat ∧ d.subsecondNanos = 0
  load {files : Files} {directory : String} {file : DescriptorFile}
    (hfinds : Descriptor.Finds files directory file)
    (hsetting : file.timeout = some (.literal text)) :
    Descriptor.load files directory = .ok (some (file.withTimeout (some n)))
  submit {mode : Mode} {word : String} (hword : word ∈ mode.commandName.words)
    {front rest : List Item} {words : List String}
    (hwords : Spells mode.commandName (front ++ .option .timeout text :: rest) words)
    {arguments : Arguments} (hparse : CommandLine.parse ("routes" :: word :: words) = .ok arguments)
    {context : Context} {session : Session Store}
    (hdone : ((execute context Store.backend arguments.command).runOn session).1 = .ok ()) :
    ∃ submission, ((execute context Store.backend arguments.command).runOn
        session).2.backend.submissions = session.backend.submissions ++ [submission] ∧
      submission.route.timeout = some n
  run {mode : Mode} {word : String} (hword : word ∈ mode.commandName.words)
    {front rest : List Item} {words bareWords : List String}
    (hwords : Spells mode.commandName (front ++ .option .timeout text :: rest) words)
    (hbare : Spells mode.commandName
      (front ++ .option .timeout (Duration.bareText n) :: rest) bareWords) :
    (CommandLine.parse ("routes" :: word :: words)).toOption =
        (CommandLine.parse ("routes" :: word :: bareWords)).toOption ∧
      ∀ arguments, CommandLine.parse ("routes" :: word :: bareWords) = .ok arguments →
        ∀ world, Program.run world ("routes" :: word :: words) =
          Program.run world ("routes" :: word :: bareWords)

/-- What is read as `n` seconds stands for them everywhere. -/
theorem standsFor_of_parse {text : String} {n : UInt64}
    (h : Duration.parse text = .ok (Duration.ofWord n)) : StandsFor text n where
  parse := ⟨_, h, Duration.seconds_ofWord n, Duration.subsecondNanos_ofWord n⟩
  load := by
    intro files directory file hfinds hsetting
    have hseconds : (TimeoutSetting.literal text).toSeconds = .ok n := by
      rw [TimeoutSetting.toSeconds, h]
      exact congrArg Except.ok (Duration.word_ofWord n)
    exact Descriptor.load_of_finds hfinds (file.toDescriptor_of_timeout hsetting hseconds)
  submit := by
    intro mode word hword front rest words hwords arguments hparse context session hdone
    obtain ⟨writing, d, hcommand, hd, htimeout⟩ := exists_writing_of_parse hword hwords hparse
    obtain rfl : Duration.ofWord n = d := Except.ok.inj (h.symm.trans hd)
    rw [hcommand] at hdone ⊢
    obtain ⟨submission, hsubmissions, hroute⟩ := Writing.submits_timeout hdone htimeout
    rw [Duration.word_ofWord] at hroute
    exact ⟨submission, hsubmissions, hroute⟩
  run := by
    intro mode word hword front rest words bareWords hwords hbare
    have halike : (CommandLine.parse ("routes" :: word :: words)).toOption =
        (CommandLine.parse ("routes" :: word :: bareWords)).toOption :=
      parse_routes_timeout_congr (h.trans (Duration.parse_bareText n).symm)
        mode.commandName_mem_children mode.children_commandName hword hwords hbare
    refine ⟨halike, fun arguments hparse world => ?_⟩
    rw [hparse, toOption_eq_some_iff.mpr rfl, toOption_eq_some_iff] at halike
    rw [Program.run, Program.run, halike, hparse]

theorem standsFor_iff {text : String} {n : UInt64} :
    StandsFor text n ↔ Duration.parse text = .ok (Duration.ofWord n) := by
  refine ⟨fun h => ?_, standsFor_of_parse⟩
  obtain ⟨d, hparse, hseconds, hnanos⟩ := h.parse
  rw [hparse, Duration.eq_ofWord hseconds hnanos]

/-- A number of seconds stands for itself without a unit and as a number in a func file.  With its
unit it is rounded first and stands for itself exactly if it is short. -/
theorem unit_text_stands_iff_short (n : UInt64) :
    (∀ {files : Files} {directory : String} {file : DescriptorFile},
      Descriptor.Finds files directory file → file.timeout = some (.seconds n) →
        Descriptor.load files directory = .ok (some (file.withTimeout (some n)))) ∧
    StandsFor (Duration.bareText n) n ∧
    (StandsFor (Duration.unitText n) n ↔ Duration.IsShort n.toNat) ∧
    Duration.parse (Duration.unitText n) = Duration.orOutOfRange (Duration.unitText n)
      (Duration.ofSeconds? (Duration.roundToFormat n.toNat 1)) := by
  refine ⟨fun hfinds hsetting => ?_, standsFor_of_parse (Duration.parse_bareText n), ?_,
    Duration.parse_unitText n⟩
  · exact Descriptor.load_of_finds hfinds (DescriptorFile.toDescriptor_of_timeout hsetting rfl)
  · rw [standsFor_iff, ← Duration.parse_unitText_eq_bareText, Duration.parse_bareText]

/-- A new route is submitted with the seconds that the text stands for. -/
theorem unit_text_stands_iff_short_ninety :
    StandsFor "90s" 90 ∧
      ∃ arguments, parse ["routes", "c", "app", "/p", "img", "--timeout=90s"] = .ok arguments ∧
        ∃ submission, ((execute (Context.beside {}) Store.backend arguments.command).runOn
            { backend := {} }).2.backend.submissions = [submission] ∧
          submission.route.timeout = some 90 := by
  have hunit : Duration.unitText 90 = "90s" := by decide
  have hbare : Duration.bareText 90 = "90" := by decide
  have hstands : StandsFor "90s" 90 :=
    hunit ▸ (unit_text_stands_iff_short 90).2.2.1.mpr (Duration.isShort_of_lt (by decide))
  have hsame : Duration.parse "90s" = Duration.parse "90" := by
    rw [standsFor_iff.mp hstands, ← hbare, Duration.parse_bareText]
  have hword : ∀ text : String, text.toList.head? ≠ some '-' →
      SpellsPart .routesCreate [.word text] [text] := fun text h => .word (isPlain_of_head h)
  have hspells := fun text => Spells.cons (hword "app" (by decide)) (.cons (hword "/p" (by decide))
    (.cons (hword "img" (by decide))
      (.cons (@SpellsPart.long .routesCreate .timeout "timeout" rfl rfl text) .nil)))
  have hwords : ∀ text, Spells .routesCreate
      ([.word "app", .word "/p", .word "img"] ++ .option .timeout text :: [])
      ["app", "/p", "img", "--" ++ "timeout" ++ "=" ++ text] := hspells
  let writing : Writing :=
    .create "app" (some "/p") (some "img") { timeout := some (Duration.ofWord 90) }
  have hparse : parse ["routes", "c", "app", "/p", "img", "--timeout=90s"] =
      .ok ⟨0, false, none, writing.command⟩ := by
    have hwith : parse ["routes", "c", "app", "/p", "img", "--timeout=90"] =
        .ok ⟨0, false, none, writing.command⟩ := rfl
    have halike := parse_routes_timeout_congr hsame (by decide) rfl
      (by decide : "c" ∈ CommandName.routesCreate.words) (hwords "90s") (hwords "90")
    exact toOption_eq_some_iff.mp (halike.trans (toOption_eq_some_iff.mpr hwith))
  have hdone : ((execute (Context.beside {}) Store.backend writing.command).runOn
      { backend := {} }).1 = .ok () :=
    (writing.performs_execute (Context.holds_beside {}) Store.backend _).1
  refine ⟨hstands, _, hparse, ?_⟩
  exact @StandsFor.submit _ _ hstands .create _ (by decide) _ _ _ (hwords "90s") _ hparse _ _ hdone

/-- One above `2 ^ 53` seconds is too long a number to stand for itself with a unit. -/
theorem unit_text_loses_a_second :
    Duration.parse "9007199254740993" = .ok (Duration.ofWord 9007199254740993) ∧
      Duration.parse "9007199254740993s" = .ok (Duration.ofWord 9007199254740992) ∧
      ¬ StandsFor "9007199254740993s" 9007199254740993 := by
  have hbare : Duration.bareText 9007199254740993 = "9007199254740993" := by decide
  have hunit : Duration.unitText 9007199254740993 = "9007199254740993s" := by decide
  have hrounded : Duration.parse "9007199254740993s" = .ok (Duration.ofWord 9007199254740992) := by
    rw [← hunit, Duration.parse_unitText_eq_ok]
    decide
  refine ⟨hbare ▸ Duration.parse_bareText _, hrounded, fun h => ?_⟩
  have hsame := Except.ok.inj (hrounded.symm.trans (standsFor_iff.mp h))
  exact absurd (congrArg Duration.nanos hsame) (by decide)

end Program
end AppRoutes
