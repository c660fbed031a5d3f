/-
The backend that keeps its routes on a server.
-/
import AppRoutes.Http.Url
import AppRoutes.Http.Answer

namespace AppRoutes.Http

def acceptJson : String × String := ("accept", "application/json")

def acceptAnything : String × String := ("accept", "*/*")

def jsonBody : String × String := ("content-type", "application/json; charset=utf-8")

def jsonCall : String × String := ("content-type", "application/json")

def isAccept (header : String × String) : Bool := header.1.toLower = "accept"

/-- The request of a call: its own headers follow the content type, and it accepts anything
unless it says otherwise. -/
def callRequest (url : String) (invocation : Invocation) : Request where
  method := invocation.method
  url := url
  headers :=
    jsonCall :: invocation.headers ++
      (if invocation.headers.any isAccept then [] else [acceptAnything])
  body := invocation.body.getD ByteArray.empty

def invalidCall (invalid : Invalid) : Error :=
  .unexpected ("error running route: " ++ invalid.message) none

def lift {σ α : Type} : Except Error α → Action σ α
  | .ok a => return a
  | .error e => throw e

namespace Api

def fetchRequest (api : Api) (app path : String) : Request :=
  { method := "GET", url := api.routeUrl app path, headers := [acceptJson] }

def replaceRequest (api : Api) (app path : String) (route : Route) : Request :=
  { method := "PATCH", url := api.routeUrl app path, headers := [acceptJson, jsonBody]
    body := route.body.toUTF8 }

def createRequest (api : Api) (app : String) (route : Route) : Request :=
  { method := "POST", url := api.routesUrl app, headers := [acceptJson, jsonBody]
    body := route.body.toUTF8 }

def listRequest (api : Api) (app : String) : Request :=
  { method := "GET", url := api.routesUrl app, headers := [acceptJson] }

def deleteRequest (api : Api) (app path : String) : Request :=
  { method := "DELETE", url := api.routeUrl app path, headers := [acceptAnything] }

/-- Routes on the server at an address. -/
def backend (api : Api) : Backend Exchange where
  fetch app path := do
    let answer ← Exchange.send (api.fetchRequest app path)
    lift (answer.decode routeEnvelope)
  replace app path route := do
    let answer ← Exchange.send (api.replaceRequest app path route)
    lift (answer.decode routeEnvelope)
  create app route := do
    let answer ← Exchange.send (api.createRequest app route)
    lift (answer.decode routeEnvelope)
  list app := do
    let answer ← Exchange.send (api.listRequest app)
    lift (answer.decode routesEnvelope)
  delete app path := do
    let answer ← Exchange.send (api.deleteRequest app path)
    discard (lift answer.text)
  invoke app path invocation := do
    let request := callRequest (api.callUrl app path) invocation
    match request.check with
    | .error invalid => throw (invalidCall invalid)
    | .ok () => return (← Exchange.send request).body
  announce := Exchange.announce

end Api
end AppRoutes.Http
