/-
The commands of the program.

A command completes its flags from the local descriptor, runs one operation of the client and
tells what it has done.
-/
import AppRoutes.Client
import AppRoutes.CommandLine.Arguments
import AppRoutes.Delta.Literal
import AppRoutes.Delta.Resolve
import AppRoutes.Descriptor.File
import AppRoutes.Json.Select
import AppRoutes.Program.Session
import AppRoutes.Route.Wire
import AppRoutes.Terminal.Table

namespace AppRoutes
open CommandLine

/-- The changes that flags and an image ask for. -/
def CommandLine.FieldFlags.toDelta (fields : FieldFlags) (image : Option String) :
    Except Error Delta := do
  let config ← fields.config.mapM Literal.parseConfig
  let headers ← fields.headers.mapM Literal.parseHeader
  return {
    image := image
    memory := fields.memory
    type := fields.type
    format := fields.format
    maxConcurrency := fields.maxConcurrency
    timeout := fields.timeout.map (fun d => UInt64.ofNat d.seconds)
    config := config
    headers := headers }

/-- The changes that an update asks for; what is unset is deleted last. -/
def CommandLine.UpdateArguments.toDelta (arguments : UpdateArguments) : Except Error Delta := do
  let delta ← arguments.fields.toDelta (arguments.image.or arguments.imageFlag)
  return { delta with
    config := delta.config ++ arguments.unsetConfig.map Entry.delete
    headers := delta.headers ++ arguments.unsetHeader.map Entry.delete }

/-- The name of the variable that is sent as a header. -/
def variableName (literal : String) : String :=
  match Text.cut? '=' literal.toList with
  | some (name, _) => String.ofList name
  | none => literal

/-- The call with a header for each variable, empty if the variable is not set. -/
def CommandLine.CallArguments.toInvocation (arguments : CallArguments) (environment : Environment)
    (input : Option ByteArray) : Invocation :=
  (arguments.env.map variableName).foldl
    (fun invocation name => invocation.addHeader name ((environment.get? name).getD ""))
    (.ofMethod arguments.method input)

/-- The address shown for a route. -/
def endpoint (apiUrl app path : String) : String :=
  Http.Api.trimSlashes apiUrl ++ "/r/" ++ app ++ path

/-- The attributes of a route that are set, in the order of their names. -/
def Route.attributes (route : Route) : Json.Value :=
  .object (SortedMap.ofList route.members).entries

namespace Program

variable {σ : Type}

/-- The descriptor of the working directory. -/
def localDescriptor (context : Context) : Handler σ (Option Descriptor) :=
  match Descriptor.load context.files context.files.workingDirectory with
  | .ok descriptor => return descriptor
  | .error e => throw (.other e.message)

def create (context : Context) (backend : Backend σ) (app : String) (path image : Option String)
    (fields : FieldFlags) : Handler σ Unit := do
  let flags ← Handler.check (fields.toDelta image)
  let descriptor ← localDescriptor context
  let resolved ← Handler.check (resolve .create path flags descriptor)
  let route ← Handler.operate (Client.create backend app resolved.path resolved.delta)
  Handler.say context .success (route.path ++ " created with " ++ route.image)

def update (context : Context) (backend : Backend σ) (arguments : UpdateArguments) :
    Handler σ Unit := do
  let flags ← Handler.check arguments.toDelta
  let descriptor ← localDescriptor context
  if descriptor.isNone then
    Handler.say context .warning "func file not found, continuing..."
  let resolved ← Handler.check (resolve .update arguments.path flags descriptor)
  let _ ← Handler.operate
    (Client.patch backend arguments.app resolved.path (some resolved.delta))
  Handler.say context .success (arguments.app ++ " " ++ resolved.path ++ " updated")

def setConfig (context : Context) (backend : Backend σ) (app path key value : String) :
    Handler σ Unit := do
  let delta : Delta := { config := [.set key value] }
  let _ ← Handler.operate (Client.patch backend app path (some delta))
  Handler.say context .success (app ++ " " ++ path ++ " updated " ++ key ++ " with " ++ value)

def unsetConfig (context : Context) (backend : Backend σ) (app path key : String) :
    Handler σ Unit := do
  let delta : Delta := { config := [.delete key] }
  let _ ← Handler.operate (Client.patch backend app path (some delta))
  Handler.say context .success
    ("removed key '" ++ key ++ "' from the route '" ++ app ++ path ++ "'")

def delete (context : Context) (backend : Backend σ) (app path : String) : Handler σ Unit := do
  Handler.operate (Client.delete backend app path)
  Handler.say context .success (app ++ " " ++ path ++ " deleted")

def list (context : Context) (backend : Backend σ) (app : String) : Handler σ Unit := do
  let routes ← Handler.operate (Client.list backend app)
  if routes.isEmpty then
    Handler.say context .info ("No routes found for app '" ++ app ++ "'")
  else
    let rows := routes.map fun route =>
      [route.path, route.image, endpoint context.apiUrl app route.path]
    Handler.print (Terminal.tableText context.palette ["path", "image", "endpoint"] rows)

def inspect (backend : Backend σ) (app path : String) (property : Option String) :
    Handler σ Unit := do
  let route ← Handler.operate (Client.get backend app path)
  let selected := match property with
    | some property => route.attributes.select property
    | none => some route.attributes
  match selected with
  | some value => Handler.print (value.render .indented ++ "\n")
  | none => throw (.other "failed to inspect that route's field")

def call (context : Context) (backend : Backend σ) (arguments : CallArguments) :
    Handler σ Unit := do
  let invocation := arguments.toInvocation context.environment context.input
  Handler.printBytes
    (← Handler.operate (Client.call backend arguments.app arguments.path invocation))

/-- Run a command.  Scripts for shells do not speak of routes and are not written here. -/
def execute (context : Context) (backend : Backend σ) : Command → Handler σ Unit
  | .call arguments => call context backend arguments
  | .routesCall arguments => call context backend arguments
  | .list app => list context backend app
  | .create app path image fields => create context backend app path image fields
  | .update arguments => update context backend arguments
  | .configSet app path key value => setConfig context backend app path key value
  | .configUnset app path key => unsetConfig context backend app path key
  | .delete app path => delete context backend app path
  | .inspect app path property => inspect backend app path property
  | .completions _ => return

end Program
end AppRoutes
