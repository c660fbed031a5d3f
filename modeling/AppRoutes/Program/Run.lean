/-
A run of the program, from the words of the command line to what is printed.
-/
import AppRoutes.CommandLine.Scan
import AppRoutes.Http.Remote
import AppRoutes.Program.Commands
import AppRoutes.Terminal.Plain

namespace AppRoutes.Program
open CommandLine

structure World where
  files : Files
  environment : Environment
  input : Option ByteArray := none
  palette : Terminal.Palette := .plain
  exchange : Http.Exchange

structure Outcome where
  exitCode : UInt8
  output : ByteArray := ByteArray.empty
  diagnostics : String := ""
  requests : List Http.Request := []

def versionNumber : String := "0.1.0"

/-- What is printed when the version of a command is asked for. -/
def versionText (name : CommandName) : String :=
  "-".intercalate name.path ++ " " ++ versionNumber ++ "\n"

/-- The outcome of words that run no command.  Help and the explanation of a fault are not
written here. -/
def usageOutcome : UsageError → Outcome
  | .displayVersion name => { exitCode := 0, output := (versionText name).toUTF8 }
  | e => { exitCode := if e.isFault then 2 else 0 }

def isLogging (arguments : Arguments) : Bool := 1 ≤ arguments.verbose && !arguments.quiet

/-- The text with its lines after the first one set in. -/
def hangingLines (text : List Char) : List Char :=
  text.flatMap fun c => if c = '\n' then ['\n', ' ', ' ', ' ', ' '] else [c]

/-- An entry of the log, which holds no instructions for a terminal. -/
def logLine (source text : String) : String :=
  let entry := "[INFO  " ++ source ++ "] " ++ String.ofList (hangingLines text.toList) ++ "\n"
  String.ofList (Terminal.plain entry.toList)

def adviceLine : Failure → String
  | .operation e =>
    logLine "fnroutes" (e.category.description ++ ": " ++ e.category.advice)
  | .other _ => ""

def settledApi (world : World) (arguments : Arguments) : Except Settings.LoadError Http.Api := do
  let file ← Settings.fileAddress world.files world.environment
  return Settings.resolveApi (arguments.apiUrl.or (world.environment.get? "API_URL")) file

def handle (world : World) (arguments : Arguments) : Handler Http.Exchange Unit := do
  if let .completions _ := arguments.command then return
  match settledApi world arguments with
  | .error e => throw (.other e.message)
  | .ok api =>
    let context : Context :=
      { isQuiet := arguments.quiet
        apiUrl := api.url
        files := world.files
        environment := world.environment
        input := world.input
        palette := world.palette }
    execute context api.backend arguments.command

/-- Steps of the client are logged after what the command has said before it, and a failure is
reported last. -/
def conclude (world : World) (arguments : Arguments)
    (result : Except Failure Unit × Session Http.Exchange) : Outcome :=
  let session := result.2
  let log := if isLogging arguments then
      String.join (session.backend.steps.map (logLine "routekit"))
    else ""
  let report := match result.1 with
    | .ok () => ""
    | .error e =>
      Terminal.messageLine world.palette .error e.message ++
        (if isLogging arguments then adviceLine e else "")
  { exitCode := if result.1.toBool then 0 else 1
    output := session.output
    diagnostics := session.diagnostics ++ log ++ report
    requests := session.backend.received }

def run (world : World) (words : List String) : Outcome :=
  match CommandLine.parse words with
  | .error e => usageOutcome e
  | .ok arguments =>
    conclude world arguments ((handle world arguments).runOn { backend := world.exchange })

/-- What is said about a call, if a run makes one. -/
def callIn? (words : List String) : Option CallArguments :=
  match (CommandLine.parse words).map Arguments.command with
  | .ok (.call arguments) | .ok (.routesCall arguments) => some arguments
  | _ => none

/-- Only a call has a body. -/
def readsInput (words : List String) : Bool := (callIn? words).isSome

def variablesOf (words : List String) : List String :=
  let named := (callIn? words).map (fun arguments => arguments.env.map variableName)
  ["API_URL", "FNROUTES_CONFIG_DIR", "XDG_CONFIG_HOME", "HOME"] ++ named.getD []

def pathsOf (workingDirectory : String) (environment : Environment) : List String :=
  let settings := match Settings.directory environment with
    | .ok directory => [joinPath directory Settings.fileName]
    | .error _ => []
  Descriptor.fileNames.map (joinPath workingDirectory) ++ settings

end AppRoutes.Program
