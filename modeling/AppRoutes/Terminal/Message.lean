/-
Messages to the user: a sign for the kind of the message, and a text.
-/
import AppRoutes.Terminal.Style

namespace AppRoutes.Terminal

inductive Level where
  | info
  | success
  | warning
  | error
  deriving DecidableEq

namespace Level

def sign : Level → Char
  | .info => 'ℹ'
  | .success => '✓'
  | .warning => '⚠'
  | .error => '✗'

def style : Level → Style
  | .info => .blue
  | .success => .green
  | .warning => .yellow
  | .error => .red

/-- Whether the message belongs to the results of the program, not to its troubles. -/
def isResult : Level → Bool
  | .info | .success => true
  | .warning | .error => false

end Level

def messageLine (palette : Palette) (level : Level) (text : String) : String :=
  String.ofList (paint palette level.style [level.sign]) ++ " " ++ text ++ "\n"

end AppRoutes.Terminal
