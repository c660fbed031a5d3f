/-
TOML strings, keys and the blanks between them.

A string stands between quotation marks, in which backslashes begin escapes, or between
apostrophes, in which every character stands for itself.  Three marks in place of one begin a
string that may run over several lines.
-/
import AppRoutes.Text.Numeral

namespace AppRoutes.Toml
open Text

/-- Control characters that stand nowhere in a file. -/
def isForbidden (c : Char) : Bool := (c.toNat < 0x20 && c ≠ '\t') || c.toNat = 0x7F

def isBlank (c : Char) : Bool := c = ' ' || c = '\t'

def skipBlanks (text : List Char) : List Char := text.dropWhile isBlank

/-- The rest after a line end, if the text begins with one. -/
def lineEnd? : List Char → Option (List Char)
  | '\n' :: rest => some rest
  | '\r' :: '\n' :: rest => some rest
  | _ => none

/-- The rest after a comment, which runs up to the end of the line. -/
def skipComment : List Char → List Char
  | '#' :: rest => rest.dropWhile (fun c => !isForbidden c)
  | text => text

/-- The rest after blanks and at most one comment, up to the next line. -/
def endOfLine? (text : List Char) : Option (List Char) :=
  match skipComment (skipBlanks text) with
  | [] => some []
  | rest => lineEnd? rest

/-- Skip blanks, comments and line ends; `bound` limits the number of lines. -/
def skipLinesUpTo : Nat → List Char → List Char
  | 0, text => skipBlanks text
  | bound + 1, text =>
    match lineEnd? (skipComment (skipBlanks text)) with
    | some rest => skipLinesUpTo bound rest
    | none => skipBlanks text

def skipLines (text : List Char) : List Char := skipLinesUpTo text.length text

def scalar? (digits : List Char) : Option Char := do
  let n ← Numeral.valueIn? 16 digits
  if n < 0xD800 || (0xE000 ≤ n && n < 0x110000) then some (Char.ofNat n) else none

/-- The character that exactly `count` digits spell, and the rest. -/
def codePoint? (count : Nat) (text : List Char) : Option (Char × List Char) :=
  let digits := text.take count
  if digits.length = count then do return (← scalar? digits, text.drop count) else none

def escapeLetter? (c : Char) : Option Char :=
  if c = '"' || c = '\\' then some c
  else if c = 'b' then some '\x08'
  else if c = 't' then some '\t'
  else if c = 'n' then some '\n'
  else if c = 'f' then some '\x0c'
  else if c = 'r' then some '\r'
  else if c = 'e' then some '\x1b'
  else none

def escape? : List Char → Option (Char × List Char)
  | [] => none
  | c :: rest =>
    if c = 'x' then codePoint? 2 rest
    else if c = 'u' then codePoint? 4 rest
    else if c = 'U' then codePoint? 8 rest
    else do return (← escapeLetter? c, rest)

/-- The rest of a literal string after its first mark. -/
def literal? : List Char → Option (List Char × List Char)
  | [] => none
  | c :: rest =>
    if c = '\'' then some ([], rest)
    else if isForbidden c then none
    else do
      let (text, rest) ← literal? rest
      return (c :: text, rest)

/-- The rest of a basic string after its first mark; `bound` limits its characters. -/
def basicUpTo? : Nat → List Char → Option (List Char × List Char)
  | _, [] => none
  | 0, _ => none
  | bound + 1, c :: rest =>
    if c = '"' then some ([], rest)
    else if c = '\\' then do
      let (c, rest) ← escape? rest
      let (text, rest) ← basicUpTo? bound rest
      return (c :: text, rest)
    else if isForbidden c then none
    else do
      let (text, rest) ← basicUpTo? bound rest
      return (c :: text, rest)

def basic? (text : List Char) : Option (List Char × List Char) := basicUpTo? text.length text

/-- A line end right after the opening marks does not count. -/
def dropFirstLineEnd (text : List Char) : List Char := (lineEnd? text).getD text

/-- The closing marks, which up to two marks of the text may precede: those, and the rest. -/
def closing? (mark : Char) (text : List Char) : Option (List Char × List Char) :=
  let count := (text.takeWhile (· = mark)).length
  if count < 3 then none
  else
    let kept := min (count - 3) 2
    some (List.replicate kept mark, text.drop (kept + 3))

/-- A line end or a character that is not forbidden, as it stands, and the rest. -/
def lineChar? (text : List Char) : Option (List Char × List Char) :=
  match text with
  | '\r' :: '\n' :: rest => some (['\r', '\n'], rest)
  | '\n' :: rest => some (['\n'], rest)
  | c :: rest => if isForbidden c then none else some ([c], rest)
  | [] => none

def longLiteralUpTo? : Nat → List Char → Option (List Char × List Char)
  | 0, _ => none
  | bound + 1, text =>
    match closing? '\'' text with
    | some (marks, rest) => some (marks, rest)
    | none => do
      let (front, rest) ← lineChar? text
      let (back, rest) ← longLiteralUpTo? bound rest
      return (front ++ back, rest)

def longLiteral? (text : List Char) : Option (List Char × List Char) :=
  longLiteralUpTo? (text.length + 1) (dropFirstLineEnd text)

def skipSpace : List Char → List Char
  | '\n' :: rest => skipSpace rest
  | '\r' :: '\n' :: rest => skipSpace rest
  | c :: rest => if isBlank c then skipSpace rest else c :: rest
  | [] => []

/-- The rest after white space that runs over at least one line end. -/
def joinedLines? (text : List Char) : Option (List Char) :=
  (lineEnd? (skipBlanks text)).map skipSpace

def longBasicUpTo? : Nat → List Char → Option (List Char × List Char)
  | 0, _ => none
  | bound + 1, text =>
    match closing? '"' text, text with
    | some (marks, rest), _ => some (marks, rest)
    | none, '\\' :: rest =>
      match joinedLines? rest with
      | some rest => longBasicUpTo? bound rest
      | none => do
        let (c, rest) ← escape? rest
        let (back, rest) ← longBasicUpTo? bound rest
        return (c :: back, rest)
    | none, text => do
      let (front, rest) ← lineChar? text
      let (back, rest) ← longBasicUpTo? bound rest
      return (front ++ back, rest)

def longBasic? (text : List Char) : Option (List Char × List Char) :=
  longBasicUpTo? (text.length + 1) (dropFirstLineEnd text)

def string? : List Char → Option (String × List Char)
  | '"' :: '"' :: '"' :: rest => (longBasic? rest).map (fun (s, rest) => (String.ofList s, rest))
  | '\'' :: '\'' :: '\'' :: rest =>
    (longLiteral? rest).map (fun (s, rest) => (String.ofList s, rest))
  | '"' :: rest => (basic? rest).map (fun (s, rest) => (String.ofList s, rest))
  | '\'' :: rest => (literal? rest).map (fun (s, rest) => (String.ofList s, rest))
  | _ => none

def isBareKeyChar (c : Char) : Bool := c.isAlphanum || c = '_' || c = '-'

def keyPart? : List Char → Option (String × List Char)
  | '"' :: rest => (basic? rest).map (fun (s, rest) => (String.ofList s, rest))
  | '\'' :: rest => (literal? rest).map (fun (s, rest) => (String.ofList s, rest))
  | text =>
    let bare := text.takeWhile isBareKeyChar
    if bare.isEmpty then none else some (String.ofList bare, text.dropWhile isBareKeyChar)

def maxKeyParts : Nat := 80

/-- The parts of a key that has `bound` of them at most. -/
def keyUpTo? : Nat → List Char → Option (List String × List Char)
  | 0, _ => none
  | bound + 1, text => do
    let (part, rest) ← keyPart? (skipBlanks text)
    match skipBlanks rest with
    | '.' :: rest =>
      let (parts, rest) ← keyUpTo? bound rest
      return (part :: parts, rest)
    | rest => return ([part], rest)

/-- The parts of a key with points between them, and the rest after blanks. -/
def key? (text : List Char) : Option (List String × List Char) := keyUpTo? maxKeyParts text

end AppRoutes.Toml
