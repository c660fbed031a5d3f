/-
URLs of the routes interface.

An application and each segment of a path become one segment of the URL: every byte that
could end a segment, or that may not stand in a URL, is written as a percent sign and two
hexadecimal digits.  The slashes before a path are dropped and every segment gets one.
-/
import AppRoutes.Text.Split

namespace AppRoutes.Http
open Text

/-- Characters that a segment does not hold as they are. -/
def isReserved (c : Char) : Bool :=
  c.toNat ≤ 0x20 || 0x7F ≤ c.toNat || c = '"' || c = '#' || c = '%' || c = '/' || c = '<' ||
    c = '>' || c = '?' || c = '\x60' || c = '{' || c = '}'

/-- A hexadecimal digit in upper case. -/
def hexDigit (n : Nat) : Char :=
  if n < 10 then Char.ofNat ('0'.toNat + n) else Char.ofNat ('A'.toNat + (n - 10))

def percentByte (b : UInt8) : List Char := ['%', hexDigit (b.toNat / 16), hexDigit (b.toNat % 16)]

def encodeChar (c : Char) : List Char :=
  if isReserved c then (String.utf8EncodeChar c).flatMap percentByte else [c]

def encodeSegment (text : List Char) : List Char := text.flatMap encodeChar

/-- The segments of a route path. -/
def pathSegments (path : List Char) : List (List Char) :=
  split '/' (path.dropWhile (· = '/'))

/-- A route path with a slash before each segment. -/
def encodePath (path : List Char) : List Char :=
  (pathSegments path).flatMap (fun segment => '/' :: encodeSegment segment)

/-- The address of a server, without slashes at its end. -/
structure Api where
  url : String
  deriving DecidableEq

namespace Api

def trimSlashes (url : String) : String :=
  String.ofList (url.toList.reverse.dropWhile (· = '/')).reverse

def ofUrl (url : String) : Api := ⟨trimSlashes url⟩

/-- A server on this machine. -/
def initialUrl : String := "http://localhost:8080"

def initial : Api := ofUrl initialUrl

/-- The routes of an application. -/
def routesUrl (api : Api) (app : String) : String :=
  api.url ++ "/v1/apps/" ++ String.ofList (encodeSegment app.toList) ++ "/routes"

def routeUrl (api : Api) (app path : String) : String :=
  api.routesUrl app ++ String.ofList (encodePath path.toList)

/-- The endpoint that calls a route. -/
def callUrl (api : Api) (app path : String) : String :=
  api.url ++ "/r/" ++ String.ofList (encodeSegment app.toList) ++
    String.ofList (encodePath path.toList)

end Api
end AppRoutes.Http
