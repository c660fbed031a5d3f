/-
What a command line says.

The words of each command are gathered in a `Level`, with the values of its flags already
read; a complete level is a `Command`.
-/
import AppRoutes.CommandLine.Flag
import AppRoutes.Duration.Literal
import AppRoutes.Route.Basic

namespace AppRoutes.CommandLine
open Text

/-- Why the words are no command line, or what is shown instead of running a command. -/
inductive UsageError where
  | displayHelp
  | displayVersion (name : CommandName)
  /-- A command that does nothing by itself stands alone. -/
  | missingEverything
  | missingSubcommand
  | invalidSubcommand
  | unknownArgument
  /-- A value is missing or is none of the possible ones. -/
  | invalidValue
  | malformedValue
  | tooManyValues
  | argumentConflict
  | missingRequiredArgument
  deriving DecidableEq

/-- Help and version are asked for; all else is a fault. -/
def UsageError.isFault : UsageError → Bool
  | .displayHelp | .displayVersion _ => false
  | _ => true

inductive Shell where
  | bash
  | elvish
  | fish
  | powershell
  | zsh
  deriving DecidableEq

namespace Shell

def name : Shell → String
  | .bash => "bash"
  | .elvish => "elvish"
  | .fish => "fish"
  | .powershell => "powershell"
  | .zsh => "zsh"

def all : List Shell := [.bash, .elvish, .fish, .powershell, .zsh]

def ofName? (name : String) : Option Shell := all.find? (fun shell => shell.name = name)

end Shell

structure FieldFlags where
  memory : Option UInt64 := none
  type : Option RouteType := none
  config : List String := []
  headers : List String := []
  format : Option String := none
  maxConcurrency : Option UInt32 := none
  timeout : Option Duration := none
  deriving DecidableEq, Inhabited

/-- What stands at one command: its flags and its further words. -/
structure Level where
  verbose : Nat := 0
  quiet : Bool := false
  apiUrl : Option String := none
  fields : FieldFlags := {}
  image : Option String := none
  unsetConfig : List String := []
  unsetHeader : List String := []
  method : Option String := none
  env : List String := []
  words : List String := []

/-- How often the flag for more messages is counted. -/
def maxVerbose : Nat := 255

/-- A number from one up to a bound. -/
def positiveBelow? (bound : Nat) (text : String) : Option Nat :=
  match Numeral.below? bound text.toList with
  | some 0 => none
  | other => other

/-- A value for a flag that may stand once. -/
def once {α : Type} (old : Option α) (new : Except UsageError α) : Except UsageError (Option α) :=
  if old.isSome then .error .argumentConflict else some <$> new

def orMalformed {α : Type} : Option α → Except UsageError α
  | some a => .ok a
  | none => .error .malformedValue

def orInvalid {α : Type} : Option α → Except UsageError α
  | some a => .ok a
  | none => .error .invalidValue

namespace Level

def setFlag (flag : Flag) (text : String) (level : Level) : Except UsageError Level :=
  let fields := level.fields
  match flag with
  | .apiUrl => do return { level with apiUrl := ← once level.apiUrl (.ok text) }
  | .memory => do
    let value := (positiveBelow? UInt64.size text).map UInt64.ofNat
    return { level with
      fields := { fields with memory := ← once fields.memory (orMalformed value) } }
  | .type => do
    let value := RouteType.ofName? text
    return { level with fields := { fields with type := ← once fields.type (orInvalid value) } }
  | .config => return { level with fields := { fields with config := fields.config ++ [text] } }
  | .headers => return { level with fields := { fields with headers := fields.headers ++ [text] } }
  | .format => do
    return { level with fields := { fields with format := ← once fields.format (.ok text) } }
  | .maxConcurrency => do
    let value := (positiveBelow? UInt32.size text).map UInt32.ofNat
    return { level with
      fields := { fields with maxConcurrency := ← once fields.maxConcurrency (orMalformed value) } }
  | .timeout => do
    let value := (Duration.parse text).toOption
    return { level with
      fields := { fields with timeout := ← once fields.timeout (orMalformed value) } }
  | .image => do return { level with image := ← once level.image (.ok text) }
  | .unsetConfig => return { level with unsetConfig := level.unsetConfig ++ [text] }
  | .unsetHeader => return { level with unsetHeader := level.unsetHeader ++ [text] }
  | .method => do return { level with method := ← once level.method (.ok text) }
  | .env => return { level with env := level.env ++ [text] }
  | .help | .version | .verbose | .quiet => return level

def raiseFlag (name : CommandName) (flag : Flag) (level : Level) : Except UsageError Level :=
  match flag with
  | .help => .error .displayHelp
  | .version => .error (.displayVersion name)
  | .verbose => .ok { level with verbose := min (level.verbose + 1) maxVerbose }
  | .quiet => if level.quiet then .error .argumentConflict else .ok { level with quiet := true }
  | _ => .ok level

def addWord (name : CommandName) (word : String) (level : Level) : Except UsageError Level :=
  if name = .completions && (Shell.ofName? word).isNone then .error .invalidValue
  else .ok { level with words := level.words ++ [word] }

/-- Whether no general flag stands at the command. -/
def isBare (level : Level) : Bool := level.verbose = 0 && !level.quiet && level.apiUrl.isNone

end Level

/-! ## Commands -/

structure CallArguments where
  app : String
  path : String
  method : Option String
  env : List String
  deriving DecidableEq

structure UpdateArguments where
  app : String
  path : Option String
  image : Option String
  imageFlag : Option String
  fields : FieldFlags
  unsetConfig : List String
  unsetHeader : List String
  deriving DecidableEq

inductive Command where
  | call (arguments : CallArguments)
  | routesCall (arguments : CallArguments)
  | list (app : String)
  | create (app : String) (path image : Option String) (fields : FieldFlags)
  | update (arguments : UpdateArguments)
  | configSet (app path key value : String)
  | configUnset (app path key : String)
  | delete (app path : String)
  | inspect (app path : String) (property : Option String)
  | completions (shell : Shell)
  deriving DecidableEq

namespace Command

def name : Command → CommandName
  | .call _ => .call
  | .routesCall _ => .routesCall
  | .list _ => .routesList
  | .create .. => .routesCreate
  | .update _ => .routesUpdate
  | .configSet .. => .routesConfigSet
  | .configUnset .. => .routesConfigUnset
  | .delete .. => .routesDelete
  | .inspect .. => .routesInspect
  | .completions _ => .completions

def ofLevel (name : CommandName) (level : Level) : Except UsageError Command :=
  match name, level.words with
  | .call, [app, path] => .ok (.call ⟨app, path, level.method, level.env⟩)
  | .routesCall, [app, path] => .ok (.routesCall ⟨app, path, level.method, level.env⟩)
  | .routesList, [app] => .ok (.list app)
  | .routesCreate, app :: rest => .ok (.create app rest[0]? rest[1]? level.fields)
  | .routesUpdate, app :: rest =>
    if rest[1]?.isSome && level.image.isSome then .error .argumentConflict
    else
      .ok (.update ⟨app, rest[0]?, rest[1]?, level.image, level.fields, level.unsetConfig,
        level.unsetHeader⟩)
  | .routesConfigSet, [app, path, key, value] => .ok (.configSet app path key value)
  | .routesConfigUnset, [app, path, key] => .ok (.configUnset app path key)
  | .routesDelete, [app, path] => .ok (.delete app path)
  | .routesInspect, app :: path :: rest => .ok (.inspect app path rest[0]?)
  | .completions, [shell] => .completions <$> orInvalid (Shell.ofName? shell)
  | _, _ =>
    if name.children.isEmpty then .error .missingRequiredArgument
    else if level.isBare then .error .missingEverything
    else .error .missingSubcommand

end Command

structure Arguments where
  verbose : Nat
  quiet : Bool
  apiUrl : Option String
  command : Command
  deriving DecidableEq

/-- General flags count where they stand deepest. -/
def Arguments.ofLevels (levels : List Level) (command : Command) : Arguments where
  verbose := levels.foldl (fun n level => if level.verbose = 0 then n else level.verbose) 0
  quiet := levels.any Level.quiet
  apiUrl := levels.foldl (fun url level => level.apiUrl.or url) none
  command := command

end AppRoutes.CommandLine
