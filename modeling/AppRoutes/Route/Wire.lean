/-
The wire form of routes.

A route is a JSON object with its attributes in a fixed order, from which unset attributes
are left out.  Servers may list the attributes in any order, add others and wrap routes in
the envelopes defined here.
-/
import AppRoutes.Json.Value
import AppRoutes.Json.Record
import AppRoutes.Route.Basic

namespace AppRoutes
open Json

def textMember (name value : String) : List (String × Value) :=
  if value.isEmpty then [] else [(name, .string value)]

def numberMember (name : String) (value : Nat) : List (String × Value) :=
  if value = 0 then [] else [(name, .natural value)]

def optionalMember {α : Type} (name : String) (toValue : α → Value) :
    Option α → List (String × Value)
  | none => []
  | some a => [(name, toValue a)]

def SortedMap.toValue {α : Type} (toValue : α → Value) (map : SortedMap α) : Value :=
  .object (map.entries.map (fun (key, value) => (key, toValue value)))

def listValue (texts : List String) : Value := .array (texts.map .string)

namespace Route

/-- The attributes that are set, in wire order. -/
def members (route : Route) : List (String × Value) :=
  textMember "app_name" route.appName ++
  textMember "path" route.path ++
  textMember "image" route.image ++
  numberMember "memory" route.memory.toNat ++
  optionalMember "type" (fun type => .string type.name) route.type ++
  textMember "format" route.format ++
  numberMember "max_concurrency" route.maxConcurrency.toNat ++
  optionalMember "timeout" (fun seconds => .natural seconds.toNat) route.timeout ++
  optionalMember "config" (SortedMap.toValue .string) route.config ++
  optionalMember "headers" (SortedMap.toValue listValue) route.headers

def toValue (route : Route) : Value := .object route.members

def render (route : Route) : String := route.toValue.render .compact

inductive Field where
  | appName
  | path
  | image
  | memory
  | type
  | format
  | maxConcurrency
  | timeout
  | config
  | headers
  deriving DecidableEq

def Field.all : List Field :=
  [.appName, .path, .image, .memory, .type, .format, .maxConcurrency, .timeout, .config, .headers]

def Field.name : Field → String
  | .appName => "app_name"
  | .path => "path"
  | .image => "image"
  | .memory => "memory"
  | .type => "type"
  | .format => "format"
  | .maxConcurrency => "max_concurrency"
  | .timeout => "timeout"
  | .config => "config"
  | .headers => "headers"

/-- A route type, where null and the empty text leave it open. -/
def readType (node : Node) : Decoded (Option RouteType) := do
  match ← node.optional Node.text with
  | none => return none
  | some name =>
    if name.isEmpty then return none
    else
      match RouteType.parse name with
      | .ok type => return some type
      | .error reason => throw (.refused reason)

def readField (field : Field) (node : Node) (route : Route) : Decoded Route :=
  match field with
  | .appName => do return { route with appName := ← node.text }
  | .path => do return { route with path := ← node.text }
  | .image => do return { route with image := ← node.text }
  | .memory => do return { route with memory := ← node.word64 }
  | .type => do return { route with type := ← readType node }
  | .format => do return { route with format := ← node.text }
  | .maxConcurrency => do return { route with maxConcurrency := ← node.word32 }
  | .timeout => do return { route with timeout := ← node.optional Node.word64 }
  | .config => do return { route with config := ← node.optional (Node.map Node.text) }
  | .headers => do
    return { route with headers := ← node.optional (Node.map (Node.list Node.text)) }

/-- Routes as JSON: every attribute may be left out. -/
def record : Record Field Route where
  fields := Field.all
  name := Field.name
  read := readField
  start := {}
  isNamed := fun _ => false
  isReached := fun _ => false

def decode (text : String) : Decoded Route := record.decodeText text

end Route

/-- A structure with one field `name`, which has to be present if `isRequired`. -/
def envelope {α : Type} (name : String) (isRequired : Bool) (absent : α)
    (decode : Node → Decoded α) : Record Unit α where
  fields := [()]
  name := fun _ => name
  read := fun _ node _ => decode node
  start := absent
  isNamed := fun _ => isRequired
  isReached := fun _ => isRequired

/-- One route as the value of `route`. -/
def routeEnvelope : Record Unit Route := envelope "route" true {} Route.record.decode

/-- The routes as the value of `routes`, none if it is left out. -/
def routesEnvelope : Record Unit (List Route) :=
  envelope "routes" false [] (Node.list Route.record.decode)

def errorBody : Record Unit String := envelope "message" false "" Node.text

/-- A message as the value of `message` within `error`. -/
def errorEnvelope : Record Unit String := envelope "error" true "" errorBody.decode

/-- The body that carries a route to the server. -/
def Route.body (route : Route) : String :=
  (Value.object [("route", route.toValue)]).render .indented

end AppRoutes
