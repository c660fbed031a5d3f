/-
JSON values and their text.

`Value.render` writes a value in one of two layouts that differ in white space alone.  A
string is written with the fewest escapes: quotes, backslashes and control characters, the
five with a letter by that letter and the others by their code in four hexadecimal digits.
-/
namespace AppRoutes.Json

/-- A JSON value whose numbers are natural.  Members keep the order in which they are listed. -/
inductive Value where
  | null
  | boolean (value : Bool)
  | natural (value : Nat)
  | string (value : String)
  | array (items : List Value)
  | object (members : List (String × Value))
  deriving Inhabited

/-- The letter that stands for a control character after a backslash. -/
def shortEscape? (c : Char) : Option Char :=
  if c = '\x08' then some 'b'
  else if c = '\x0c' then some 'f'
  else if c = '\n' then some 'n'
  else if c = '\r' then some 'r'
  else if c = '\t' then some 't'
  else none

def isControl (c : Char) : Bool := c.toNat < 0x20

/-- One character as it stands between the quotes of a string. -/
def escapeChar (c : Char) : List Char :=
  if c = '"' || c = '\\' then ['\\', c]
  else if isControl c then
    match shortEscape? c with
    | some letter => ['\\', letter]
    | none => ['\\', 'u', '0', '0', Nat.digitChar (c.toNat / 16), Nat.digitChar (c.toNat % 16)]
  else [c]

def quote (text : List Char) : List Char := '"' :: (text.flatMap escapeChar ++ ['"'])

/-- Where white space stands: nowhere, or one item a line with two spaces a level. -/
inductive Layout where
  | compact
  | indented
  deriving DecidableEq

/-- What stands before an item at the given depth. -/
def Layout.lineBreak : Layout → Nat → List Char
  | .compact, _ => []
  | .indented, depth => '\n' :: List.replicate (2 * depth) ' '

def Layout.colon : Layout → List Char
  | .compact => [':']
  | .indented => [':', ' ']

mutual

/-- The text of a value that stands at the given depth. -/
def Value.renderAt (layout : Layout) (depth : Nat) : Value → List Char
  | .null => ['n', 'u', 'l', 'l']
  | .boolean true => ['t', 'r', 'u', 'e']
  | .boolean false => ['f', 'a', 'l', 's', 'e']
  | .natural n => Nat.toDigits 10 n
  | .string s => quote s.toList
  | .array [] => ['[', ']']
  | .array (item :: rest) =>
    '[' :: (layout.lineBreak (depth + 1) ++ item.renderAt layout (depth + 1) ++
      renderItems layout (depth + 1) rest ++ layout.lineBreak depth ++ [']'])
  | .object [] => ['{', '}']
  | .object (member :: rest) =>
    '{' :: (layout.lineBreak (depth + 1) ++ renderMember layout (depth + 1) member ++
      renderMembers layout (depth + 1) rest ++ layout.lineBreak depth ++ ['}'])

/-- Further items of an array, each with the comma before it. -/
def renderItems (layout : Layout) (depth : Nat) : List Value → List Char
  | [] => []
  | item :: rest =>
    ',' :: (layout.lineBreak depth ++ item.renderAt layout depth ++ renderItems layout depth rest)

def renderMember (layout : Layout) (depth : Nat) : String × Value → List Char
  | (key, value) => quote key.toList ++ layout.colon ++ value.renderAt layout depth

/-- Further members of an object, each with the comma before it. -/
def renderMembers (layout : Layout) (depth : Nat) : List (String × Value) → List Char
  | [] => []
  | member :: rest =>
    ',' :: (layout.lineBreak depth ++ renderMember layout depth member ++
      renderMembers layout depth rest)

end

def Value.render (layout : Layout) (value : Value) : String :=
  String.ofList (value.renderAt layout 0)

end AppRoutes.Json
