/-
HTTP requests and the replies to them.

A request is checked before it is sent: the method and the header names have to be tokens,
and header values may not hold control characters other than tabs.  A body that is wanted as a
text is read by the library behind the client, which takes texts up to a limit.
-/
namespace AppRoutes.Http

structure Request where
  method : String
  url : String
  /-- Headers in the order in which they are sent. -/
  headers : List (String × String)
  body : ByteArray := ByteArray.empty

inductive Reply where
  /-- An answer, and whether its content type is one of the `text/` types. -/
  | answer (status : Nat) (body : ByteArray) (isText : Bool := false)
  /-- The connection closes without an answer. -/
  | drop

/-- The characters of a body from a byte on, with a mark for each byte that belongs to none. -/
def charsFrom (body : ByteArray) (start : Nat) : List Char :=
  if start < body.size then
    match body.utf8DecodeChar? start with
    | some c => c :: charsFrom body (start + c.utf8Size)
    | none => '?' :: charsFrom body (start + 1)
  else []
termination_by body.size - start
decreasing_by all_goals grind [Char.utf8Size_pos]

/-- The most bytes that the library reads into a text unless it is told otherwise. -/
def textLimit : Nat := 10 * 1024 * 1024

/-- How the library behind the client reads a body that is wanted as a text. -/
structure TextReader where
  /-- The most bytes that it reads into a text. -/
  limit : Nat := textLimit
  /-- What it makes of a body that a `text/` type announces and that is not UTF-8 throughout. -/
  replaced : ByteArray → String := fun body => String.ofList (charsFrom body 0)

/-- The body as a text.  A body over the limit is given up, and so is one that is not UTF-8,
unless a `text/` type announces it. -/
def TextReader.read? (reader : TextReader) (body : ByteArray) (isText : Bool) : Option String :=
  if reader.limit < body.size then none
  else
    match String.fromUTF8? body with
    | some text => some text
    | none => if isText then some (reader.replaced body) else none

/-- An answer as it arrives. -/
structure Answer where
  status : Nat
  body : ByteArray
  /-- The body as a text, unless the library gives it up. -/
  text? : Option String

def TextReader.answer (reader : TextReader) (status : Nat) (body : ByteArray) (isText : Bool) :
    Answer :=
  ⟨status, body, reader.read? body isText⟩

def isSuccess (status : Nat) : Bool := 200 ≤ status && status < 300

/-- Whether a status sends the client to another place. -/
def isRedirect (status : Nat) : Bool := 300 ≤ status && status < 400 && status ≠ 304

/-- Whether the answer has no body whatever the server would send. -/
def hasNoBody (method : String) (status : Nat) : Bool :=
  method = "HEAD" || status = 204 || status = 304

/-- Characters of tokens, which methods and header names are. -/
def isTokenChar (c : Char) : Bool :=
  c.isAlphanum ||
    c ∈ ['!', '#', '$', '%', '&', '\'', '*', '+', '-', '.', '^', '_', '\x60', '|', '~']

def isToken (text : String) : Bool := !text.isEmpty && text.toList.all isTokenChar

def isHeaderValue (text : String) : Bool :=
  text.toList.all (fun c => (0x20 ≤ c.toNat && c.toNat ≠ 0x7F) || c = '\t')

inductive Invalid where
  | method
  | headerName
  | headerValue
  deriving DecidableEq

def Invalid.message : Invalid → String
  | .method => "invalid HTTP method"
  | .headerName => "invalid HTTP header name"
  | .headerValue => "failed to parse header value"

def checkHeaders : List (String × String) → Except Invalid Unit
  | [] => .ok ()
  | (name, value) :: rest =>
    if !isToken name then .error .headerName
    else if !isHeaderValue value then .error .headerValue
    else checkHeaders rest

/-- Find the first fault: the method, then the headers one by one, the name first.  The library
is taken to have room for every request: neither the length of the URL nor the number and the
length of the headers is bounded. -/
def Request.check (request : Request) : Except Invalid Unit :=
  if isToken request.method then checkHeaders request.headers else .error .method

def standardMethods : List String :=
  ["GET", "HEAD", "POST", "PUT", "DELETE", "CONNECT", "OPTIONS", "TRACE", "PATCH"]

end AppRoutes.Http
