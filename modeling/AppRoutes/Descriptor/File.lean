/-
Func files: local descriptors as they are written.

A directory may hold one in TOML and one in JSON; the one in TOML goes first.  Keys that no
descriptor has are passed over, so the same file can hold settings of other programs.
-/
import AppRoutes.Descriptor
import AppRoutes.Duration.Literal
import AppRoutes.Files
import AppRoutes.Json.Record
import AppRoutes.Toml.File

namespace AppRoutes
open Json

/-- A timeout as a number of seconds or as a written duration. -/
inductive TimeoutSetting where
  | seconds (count : UInt64)
  | literal (text : String)
  deriving DecidableEq

def TimeoutSetting.toSeconds : TimeoutSetting → Except Duration.Invalid UInt64
  | .seconds count => .ok count
  | .literal text => do return UInt64.ofNat (← Duration.parse text).seconds

structure DescriptorFile where
  name : Option String := none
  version : Option String := none
  format : Option String := none
  maxConcurrency : Option UInt32 := none
  timeout : Option TimeoutSetting := none
  path : Option String := none
  deriving DecidableEq

namespace DescriptorFile

def toDescriptor (file : DescriptorFile) : Except Duration.Invalid Descriptor := do
  let timeout ← file.timeout.mapM TimeoutSetting.toSeconds
  return {
    name := file.name
    version := file.version
    format := file.format
    maxConcurrency := file.maxConcurrency
    timeout := timeout
    path := file.path }

inductive Field where
  | name
  | version
  | format
  | maxConcurrency
  | timeout
  | path
  deriving DecidableEq

def Field.all : List Field := [.name, .version, .format, .maxConcurrency, .timeout, .path]

def Field.key : Field → String
  | .name => "name"
  | .version => "version"
  | .format => "format"
  | .maxConcurrency => "max_concurrency"
  | .timeout => "timeout"
  | .path => "path"

def readTimeout : Node → Decoded TimeoutSetting
  | .string (some text) => .ok (.literal text)
  | node => .seconds <$> node.word64

def readField (field : Field) (node : Node) (file : DescriptorFile) : Decoded DescriptorFile :=
  match field with
  | .name => do return { file with name := ← node.optional Node.text }
  | .version => do return { file with version := ← node.optional Node.text }
  | .format => do return { file with format := ← node.optional Node.text }
  | .maxConcurrency => do return { file with maxConcurrency := ← node.optional Node.word32 }
  | .timeout => do return { file with timeout := ← node.optional readTimeout }
  | .path => do return { file with path := ← node.optional Node.text }

/-- Descriptors as JSON: an object may leave out any key, an array holds a value for all. -/
def record : Record Field DescriptorFile where
  fields := Field.all
  name := Field.key
  read := readField
  start := {}
  isNamed := fun _ => false
  isReached := fun _ => true

def ofJson? (text : String) : Option DescriptorFile := (record.decodeText text).toOption

/-! ## TOML

The outer option says whether the value has the right kind, the inner one whether the key is
there. -/

def textAt? (key : String) (members : Toml.Members) : Option (Option String) :=
  match members.get? key with
  | none => some none
  | some (.value (.string text)) => some (some text)
  | some _ => none

def naturalAt? (bound : Nat) (key : String) (members : Toml.Members) : Option (Option Nat) :=
  match members.get? key with
  | none => some none
  | some (.value (.integer n)) => if 0 ≤ n && n < bound then some (some n.toNat) else none
  | some _ => none

def timeoutAt? (key : String) (members : Toml.Members) : Option (Option TimeoutSetting) :=
  match members.get? key with
  | some (.value (.string text)) => some (some (.literal text))
  | _ => (naturalAt? UInt64.size key members).map (·.map (fun n => .seconds (UInt64.ofNat n)))

def ofMembers? (members : Toml.Members) : Option DescriptorFile := do
  return {
    name := ← textAt? "name" members
    version := ← textAt? "version" members
    format := ← textAt? "format" members
    maxConcurrency := (← naturalAt? UInt32.size "max_concurrency" members).map UInt32.ofNat
    timeout := ← timeoutAt? "timeout" members
    path := ← textAt? "path" members }

def ofToml? (text : String) : Option DescriptorFile := (Toml.Members.read? text).bind ofMembers?

end DescriptorFile

/-! ## Files -/

inductive DescriptorFormat where
  | toml
  | json
  deriving DecidableEq

namespace DescriptorFormat

def name : DescriptorFormat → String
  | .toml => "TOML"
  | .json => "JSON"

def extension : DescriptorFormat → String
  | .toml => "toml"
  | .json => "json"

/-- The format that the extension of a file name stands for. -/
def ofPath? (path : String) : Option DescriptorFormat :=
  let name := ((Files.parts path).getLast?.getD "").toList
  let extension := (name.reverse.takeWhile (· ≠ '.')).reverse
  let stem := name.take (name.length - extension.length - 1)
  if stem.isEmpty then none
  else if String.ofList extension = DescriptorFormat.toml.extension then some .toml
  else if String.ofList extension = DescriptorFormat.json.extension then some .json
  else none

def read? (format : DescriptorFormat) (text : String) : Option DescriptorFile :=
  match format with
  | .toml => DescriptorFile.ofToml? text
  | .json => DescriptorFile.ofJson? text

end DescriptorFormat

namespace Descriptor

inductive LoadError where
  | unreadable (path : String)
  | invalid (format : DescriptorFormat) (path : String)
  | unsupported (path : String)
  | badTimeout (path : String) (cause : Duration.Invalid)
  deriving DecidableEq

def LoadError.message : LoadError → String
  | .unreadable path => "Could not read func file: " ++ path
  | .invalid format path => "Invalid " ++ format.name ++ " format in " ++ path
  | .unsupported path => "Unsupported func file format: " ++ path
  | .badTimeout path cause => "Invalid timeout in " ++ path ++ ": " ++ cause.message

/-- The names of func files, the first one found counts. -/
def fileNames : List String := ["func.toml", "func.json"]

def locate? (files : Files) (directory : String) : Option String :=
  (fileNames.map (joinPath directory)).find? files.isFile

def parse (files : Files) (path : String) : Except LoadError Descriptor :=
  match files.readText? path with
  | none => .error (.unreadable path)
  | some text =>
    match DescriptorFormat.ofPath? path with
    | none => .error (.unsupported path)
    | some format =>
      match format.read? text with
      | none => .error (.invalid format path)
      | some file => file.toDescriptor.mapError (LoadError.badTimeout path)

/-- The descriptor in a directory, if there is a func file. -/
def load (files : Files) (directory : String) : Except LoadError (Option Descriptor) :=
  match locate? files directory with
  | none => .ok none
  | some path => some <$> parse files path

end Descriptor
end AppRoutes
