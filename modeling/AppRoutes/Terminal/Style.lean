/-
Styles of terminal text.

A styled text begins with an escape sequence and ends with the one that resets the style.  A
reset within the text is followed by the style again, so the style lasts to the end.
-/
namespace AppRoutes.Terminal

/-- Whether styles are written at all. -/
inductive Palette where
  | plain
  | colored
  deriving DecidableEq

inductive Style where
  | bold
  | red
  | green
  | yellow
  | blue
  deriving DecidableEq

def Style.code : Style → List Char
  | .bold => ['1']
  | .red => ['3', '1']
  | .green => ['3', '2']
  | .yellow => ['3', '3']
  | .blue => ['3', '4']

def Style.start (style : Style) : List Char := '\x1b' :: '[' :: (style.code ++ ['m'])

def reset : List Char := ['\x1b', '[', '0', 'm']

/-- The text with the style again after each reset. -/
def renew (start : List Char) : List Char → List Char
  | '\x1b' :: '[' :: '0' :: 'm' :: rest => reset ++ start ++ renew start rest
  | c :: rest => c :: renew start rest
  | [] => []

def paint (palette : Palette) (style : Style) (text : List Char) : List Char :=
  match palette with
  | .plain => text
  | .colored => style.start ++ renew style.start text ++ reset

end AppRoutes.Terminal
