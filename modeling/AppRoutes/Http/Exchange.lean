/-
What passes between a client and one server.

The server answers the requests that reach it from a list of replies, one after another, and
then always in the same way.  A server may also be out of reach: then every request fails
before it is sent, and none is received.  Requests of any size reach a server within reach:
the library's bounds on URLs and headers are no part of an exchange, its bound on the texts that
it reads is.
-/
import AppRoutes.Backend
import AppRoutes.Http.Message

namespace AppRoutes.Http

structure Exchange where
  isReachable : Bool := true
  /-- The replies that are still to come. -/
  replies : List Reply := []
  /-- The requests that the server has received, in order. -/
  received : List Request := []
  /-- The steps that the client has announced, in order. -/
  steps : List String := []
  /-- How the client's library reads bodies as texts. -/
  reader : TextReader := {}

namespace Exchange

/-- The reply when the list has run out. -/
def lastReply : Reply := .answer 599 "no scripted response".toUTF8

/-- Any failure of the connection, or an answer that cannot be read as a text where one is
wanted. -/
def transportFailure : Error := .unexpected "<transport>" none

/-- A method that the protocol does not define is refused once the server is reached. -/
def foreignMethod (method : String) : Error :=
  .unexpected ("protocol: " ++ method ++ " not valid for HTTP version HTTP/1.1") none

def missingLocation : Error := .unexpected "protocol: missing a location header" none

/-- What the client makes of a reply. -/
def receive (reader : TextReader) (request : Request) : Reply → Except Error Answer
  | .drop => .error transportFailure
  | .answer status body isText =>
    if isRedirect status then .error missingLocation
    else
      let sent := if hasNoBody request.method status then ByteArray.empty else body
      .ok (reader.answer status sent isText)

/-- Send a request and wait for the answer. -/
def send (request : Request) : Action Exchange Answer := do
  let exchange ← get
  if !exchange.isReachable then throw transportFailure
  else if request.method ∉ standardMethods then throw (foreignMethod request.method)
  else
    set { exchange with
      replies := exchange.replies.tail
      received := exchange.received ++ [request] }
    match receive exchange.reader request (exchange.replies.headD lastReply) with
    | .ok answer => return answer
    | .error e => throw e

def announce (step : String) : Action Exchange Unit :=
  modify fun exchange => { exchange with steps := exchange.steps ++ [step] }

end Exchange
end AppRoutes.Http
