/-
The commands and flags of the command line.
-/
namespace AppRoutes.CommandLine

inductive Flag where
  | help
  | version
  | verbose
  | quiet
  | apiUrl
  | memory
  | type
  | config
  | headers
  | format
  | maxConcurrency
  | timeout
  | image
  | unsetConfig
  | unsetHeader
  | method
  | env
  deriving DecidableEq

namespace Flag

def letter? : Flag → Option Char
  | .help => some 'h'
  | .version => some 'V'
  | .verbose => some 'v'
  | .quiet => some 'q'
  | .memory => some 'm'
  | .type => some 't'
  | .config => some 'c'
  | .format => some 'f'
  | .image => some 'i'
  | .env => some 'e'
  | _ => none

def names : Flag → List String
  | .help => ["help"]
  | .version => ["version"]
  | .verbose => ["verbose"]
  | .quiet => ["quiet"]
  | .apiUrl => ["api-url"]
  | .memory => ["memory"]
  | .type => ["type"]
  | .config => ["config"]
  | .headers => ["headers", "header"]
  | .format => ["format"]
  | .maxConcurrency => ["max-concurrency", "mc"]
  | .timeout => ["timeout"]
  | .image => ["image"]
  | .unsetConfig => ["unset-config"]
  | .unsetHeader => ["unset-header"]
  | .method => ["method"]
  | .env => ["env"]

def takesValue : Flag → Bool
  | .help | .version | .verbose | .quiet => false
  | _ => true

def general : List Flag := [.help, .version, .verbose, .quiet, .apiUrl]

def attributes : List Flag :=
  [.memory, .type, .config, .headers, .format, .maxConcurrency, .timeout]

end Flag

/-- A command, by the words that lead to it. -/
inductive CommandName where
  | program
  | routes
  | routesCall
  | routesList
  | routesCreate
  | routesUpdate
  | routesConfig
  | routesConfigSet
  | routesConfigUnset
  | routesDelete
  | routesInspect
  | call
  | completions
  deriving DecidableEq

namespace CommandName

/-- The word that chooses the command, and a shorter one if there is one. -/
def words : CommandName → List String
  | .program => ["fnroutes"]
  | .routes => ["routes"]
  | .routesCall | .call => ["call"]
  | .routesList => ["list", "l"]
  | .routesCreate => ["create", "c"]
  | .routesUpdate => ["update", "u"]
  | .routesConfig => ["config"]
  | .routesConfigSet => ["set", "s"]
  | .routesConfigUnset => ["unset", "u"]
  | .routesDelete => ["delete", "d"]
  | .routesInspect => ["inspect", "i"]
  | .completions => ["completions"]

/-- The commands below a command, which then does nothing by itself. -/
def children : CommandName → List CommandName
  | .program => [.routes, .call, .completions]
  | .routes =>
    [.routesCall, .routesList, .routesCreate, .routesUpdate, .routesConfig, .routesDelete,
     .routesInspect]
  | .routesConfig => [.routesConfigSet, .routesConfigUnset]
  | _ => []

def child? (name : CommandName) (word : String) : Option CommandName :=
  name.children.find? (fun child => word ∈ child.words)

/-- The words that choose the command, from the program on. -/
def path : CommandName → List String
  | .program => ["fnroutes"]
  | .routes => ["fnroutes", "routes"]
  | .routesCall => ["fnroutes", "routes", "call"]
  | .routesList => ["fnroutes", "routes", "list"]
  | .routesCreate => ["fnroutes", "routes", "create"]
  | .routesUpdate => ["fnroutes", "routes", "update"]
  | .routesConfig => ["fnroutes", "routes", "config"]
  | .routesConfigSet => ["fnroutes", "routes", "config", "set"]
  | .routesConfigUnset => ["fnroutes", "routes", "config", "unset"]
  | .routesDelete => ["fnroutes", "routes", "delete"]
  | .routesInspect => ["fnroutes", "routes", "inspect"]
  | .call => ["fnroutes", "call"]
  | .completions => ["fnroutes", "completions"]

def flags : CommandName → List Flag
  | .routesCreate => Flag.general ++ Flag.attributes
  | .routesUpdate => Flag.general ++ Flag.attributes ++ [.image, .unsetConfig, .unsetHeader]
  | .routesCall | .call => Flag.general ++ [.method, .env]
  | _ => Flag.general

/-- How many words a command takes beside its flags. -/
def maxWords : CommandName → Nat
  | .program | .routes | .routesConfig => 0
  | .routesList | .completions => 1
  | .routesCall | .call | .routesDelete => 2
  | .routesCreate | .routesUpdate | .routesInspect | .routesConfigUnset => 3
  | .routesConfigSet => 4

def flagOfLetter? (name : CommandName) (letter : Char) : Option Flag :=
  name.flags.find? (fun flag => flag.letter? = some letter)

def flagOfName? (name : CommandName) (word : String) : Option Flag :=
  name.flags.find? (fun flag => word ∈ flag.names)

end CommandName
end AppRoutes.CommandLine
