/-
Reading a command line word by word.

A word that begins with a hyphen holds flags, unless it is the hyphen alone; after a word of
two hyphens nothing is a flag any more.  A value that stands in a word of its own, and a
further word of a command, is read when the next flag or word comes, so a fault in what
follows at once goes before a fault in the value.
-/
import AppRoutes.CommandLine.Arguments
import AppRoutes.Text.Split

namespace AppRoutes.CommandLine
open Text

/-- What has been seen but not read yet. -/
inductive Pending where
  | flag (flag : Flag)
  | value (flag : Flag) (text : String)
  | word (text : String)
  deriving DecidableEq

/-- How far a command has been read. -/
structure Progress where
  level : Level := {}
  pending : Option Pending := none
  /-- Whether nothing is a flag any more. -/
  isLiteral : Bool := false

namespace Progress

def settle (name : CommandName) (progress : Progress) : Except UsageError Progress :=
  match progress.pending with
  | none => .ok progress
  | some (.flag _) => .error .invalidValue
  | some (.value flag text) => do
    return { progress with level := ← progress.level.setFlag flag text, pending := none }
  | some (.word text) => do
    return { progress with level := ← progress.level.addWord name text, pending := none }

/-- The flag that waits for its value in the next word. -/
def waiting? (progress : Progress) : Option Flag :=
  match progress.pending with
  | some (.flag flag) => some flag
  | _ => none

def wordCount (progress : Progress) : Nat :=
  match progress.pending with
  | some (.word _) => progress.level.words.length + 1
  | _ => progress.level.words.length

def raise (name : CommandName) (flag : Flag) (progress : Progress) :
    Except UsageError Progress := do
  let progress ← progress.settle name
  return { progress with level := ← progress.level.raiseFlag name flag }

/-- A flag with a value, which stands in the same word or comes next. -/
def option (name : CommandName) (flag : Flag) (value : Option (List Char)) (progress : Progress) :
    Except UsageError Progress := do
  let progress ← progress.settle name
  match value with
  | some text =>
    return { progress with level := ← progress.level.setFlag flag (String.ofList text) }
  | none => return { progress with pending := some (.flag flag) }

/-- The text after the letter of a flag; an equals sign before it does not count. -/
def attached? : List Char → Option (List Char)
  | [] => none
  | '=' :: text => some text
  | text => some text

def letters (name : CommandName) : List Char → Progress → Except UsageError Progress
  | [], progress => .ok progress
  | letter :: rest, progress =>
    match name.flagOfLetter? letter with
    | none => .error .unknownArgument
    | some flag =>
      if flag.takesValue then progress.option name flag (attached? rest)
      else do letters name rest (← progress.raise name flag)

def longFlag (name : CommandName) (text : List Char) (progress : Progress) :
    Except UsageError Progress :=
  let (key, value) := match cut? '=' text with
    | some (key, value) => (key, some value)
    | none => (text, none)
  match name.flagOfName? (String.ofList key) with
  | none => .error .unknownArgument
  | some flag =>
    if flag.takesValue then progress.option name flag value
    else if value.isSome then .error .tooManyValues
    else progress.raise name flag

end Progress

def helpWord : String := "help"

def isSubcommand (name : CommandName) (word : String) : Bool :=
  (name.child? word).isSome || (word = helpWord && !name.children.isEmpty)

/-- The help on the command to which further words lead. -/
def helpOn (name : CommandName) : List String → UsageError
  | [] => .displayHelp
  | word :: rest =>
    match name.child? word with
    | some child => helpOn child rest
    | none =>
      if isSubcommand name word && rest.isEmpty then .displayHelp else .invalidSubcommand

/-- The fault of a word for which a command has no place. -/
def surplusWord (name : CommandName) (isLiteral : Bool) (word : String) : UsageError :=
  if name.children.isEmpty || (isLiteral && isSubcommand name word) then .unknownArgument
  else .invalidSubcommand

def Progress.addWord (name : CommandName) (word : String) (progress : Progress) :
    Except UsageError Progress :=
  if progress.wordCount < name.maxWords then do
    return { ← progress.settle name with pending := some (.word word) }
  else .error (surplusWord name progress.isLiteral word)

/-- Read a word that chooses no command. -/
def Progress.read (name : CommandName) (word : String) (progress : Progress) :
    Except UsageError Progress :=
  if progress.isLiteral then progress.addWord name word
  else
    match word.toList with
    | ['-', '-'] => .ok { progress with isLiteral := true }
    | '-' :: '-' :: text => progress.longFlag name text
    | '-' :: letter :: rest => Progress.letters name (letter :: rest) progress
    | _ =>
      match progress.waiting? with
      | some flag => .ok { progress with pending := some (.value flag word) }
      | none => progress.addWord name word

/-- Read the words of a command and of those that they choose below it. -/
def scan (name : CommandName) (progress : Progress) :
    List String → Except UsageError (List Level × Command)
  | [] => do
    let progress ← progress.settle name
    return ([progress.level], ← Command.ofLevel name progress.level)
  | word :: rest => do
    if !progress.isLiteral && progress.waiting?.isNone && isSubcommand name word then
      match name.child? word with
      | none => throw (helpOn name rest)
      | some child =>
        let (levels, command) ← scan child {} rest
        let progress ← progress.settle name
        return (progress.level :: levels, command)
    else
      scan name (← progress.read name word) rest

def parse (words : List String) : Except UsageError Arguments := do
  let (levels, command) ← scan .program {} words
  return Arguments.ofLevels levels command

end AppRoutes.CommandLine
