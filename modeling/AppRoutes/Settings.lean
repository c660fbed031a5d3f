/-
Settings of the program.

The address of the server comes from the command line or the environment, else from the
settings file, else it is a server on this machine; an empty text counts as nothing.
-/
import AppRoutes.Files
import AppRoutes.Descriptor
import AppRoutes.Http.Url
import AppRoutes.Toml.File

namespace AppRoutes

abbrev Environment : Type := List (String × String)

def Environment.get? (environment : Environment) (name : String) : Option String :=
  environment.lookup name

namespace Settings

inductive LoadError where
  | noHome
  | unreadable (path : String)
  | invalid (path : String)
  deriving DecidableEq

def LoadError.message : LoadError → String
  | .noHome => "Could not determine home directory"
  | .unreadable path => "Could not read config file: " ++ path
  | .invalid path => "Invalid TOML format in " ++ path

/-- A path in which a tilde at the front, alone or before a slash, stands for the home
directory. -/
def expandTilde (home : Option String) (path : String) : String :=
  match path.toList, home with
  | ['~'], some home => home
  | '~' :: '/' :: rest, some home => home ++ String.ofList ('/' :: rest)
  | _, _ => path

def homeDirectory? (environment : Environment) : Option String :=
  nonempty? (environment.get? "HOME")

def directory (environment : Environment) : Except LoadError String :=
  let home := homeDirectory? environment
  match environment.get? "FNROUTES_CONFIG_DIR", environment.get? "XDG_CONFIG_HOME", home with
  | some path, _, _ => .ok (expandTilde home path)
  | none, some path, _ => .ok (joinPath path "fnroutes")
  | none, none, some home => .ok (joinPath (joinPath home ".config") "fnroutes")
  | none, none, none => .error .noHome

def fileName : String := "config.toml"

/-- The address that a settings file holds, if it is one. -/
def addressIn? (text : String) : Option (Option String) := do
  match (← Toml.Members.read? text).get? "api_url" with
  | none => return none
  | some (.value (.string url)) => return some url
  | some _ => none

/-- The address in the settings file, none if there is no file. -/
def fileAddress (files : Files) (environment : Environment) : Except LoadError (Option String) := do
  let path := joinPath (← directory environment) fileName
  match files.find? path with
  | none => return none
  | some _ =>
    match files.readText? path with
    | none => throw (.unreadable path)
    | some text =>
      match addressIn? text with
      | none => throw (.invalid path)
      | some address => return address

def resolveApi (flag file : Option String) : Http.Api :=
  .ofUrl (((nonempty? flag).or (nonempty? file)).getD Http.Api.initialUrl)

end Settings
end AppRoutes
