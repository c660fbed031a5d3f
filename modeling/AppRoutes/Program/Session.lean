/-
What a command works with: what it finds, what it prints, and how it can fail.
-/
import AppRoutes.Backend
import AppRoutes.Files
import AppRoutes.Settings
import AppRoutes.Terminal.Message

namespace AppRoutes.Program

structure Context where
  isQuiet : Bool := false
  /-- The address of the server, as the settings give it. -/
  apiUrl : String
  files : Files
  environment : Environment := []
  /-- What is piped into the program, nothing if a terminal is. -/
  input : Option ByteArray := none
  palette : Terminal.Palette := .plain

/-- What has been printed so far, and the state of the backend. -/
structure Session (σ : Type) where
  output : ByteArray := ByteArray.empty
  diagnostics : String := ""
  backend : σ

inductive Failure where
  | operation (e : Error)
  | other (message : String)
  deriving DecidableEq

def Failure.message : Failure → String
  | .operation e => e.display
  | .other message => message

abbrev Handler (σ : Type) : Type → Type := ExceptT Failure (StateM (Session σ))

namespace Handler

variable {σ α : Type}

def runOn (handler : Handler σ α) (session : Session σ) : Except Failure α × Session σ :=
  StateT.run (ExceptT.run handler) session

def operate (action : Action σ α) : Handler σ α := do
  let session ← get
  let (result, backend) := action.runOn session.backend
  set { session with backend }
  match result with
  | .ok a => return a
  | .error e => throw (.operation e)

/-- The result of a check that precedes every operation. -/
def check : Except Error α → Handler σ α
  | .ok a => return a
  | .error e => throw (.operation e)

def printBytes (bytes : ByteArray) : Handler σ Unit :=
  modify fun session => { session with output := session.output ++ bytes }

def print (text : String) : Handler σ Unit := printBytes text.toUTF8

def complain (text : String) : Handler σ Unit :=
  modify fun session => { session with diagnostics := session.diagnostics ++ text }

/-- Show a message, unless the program is to be quiet. -/
def say (context : Context) (level : Terminal.Level) (text : String) : Handler σ Unit :=
  let line := Terminal.messageLine context.palette level text
  if context.isQuiet then return
  else if level.isResult then print line
  else complain line

end Handler
end AppRoutes.Program
