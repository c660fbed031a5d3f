/-
Descriptors as files.

Every descriptor can be written as a func file: as a JSON object that has all the keys, with
null for what is left open.  The file is read as the descriptor, so what holds of every
descriptor that a directory can hold holds of every descriptor.
-/
import AppRoutes.Descriptor.File
import AppRoutes.Json.Value
import AppRoutes.Proofs.Http.Message
import AppRoutes.Proofs.Json.Decoding

namespace AppRoutes

open Json

def optionalValue {α : Type} (toValue : α → Value) : Option α → Value
  | none => .null
  | some a => toValue a

theorem optional_optionalValue {α : Type} {decode : Node → Decoded α} {toValue : α → Value}
    (hnull : ∀ a, (toValue a).toNode ≠ .null) (h : ∀ a, decode (toValue a).toNode = .ok a)
    (value : Option α) : Node.optional decode (optionalValue toValue value).toNode = .ok value := by
  cases value with
  | none => rfl
  | some a => exact optional_of_ne_null (hnull a) (h a)

theorem optional_textValue (text : Option String) :
    Node.optional Node.text (optionalValue .string text).toNode = .ok text :=
  optional_optionalValue (fun _ => by simp [Value.toNode]) (fun _ => rfl) text

def TimeoutSetting.toValue : TimeoutSetting → Value
  | .seconds count => .natural count.toNat
  | .literal text => .string text

theorem readTimeout_toValue (setting : TimeoutSetting) :
    DescriptorFile.readTimeout setting.toValue.toNode = .ok setting := by
  cases setting with
  | seconds count => exact congrArg (TimeoutSetting.seconds <$> ·) (word64_natural count)
  | literal text => rfl

namespace DescriptorFile

/-- What a file holds under a key. -/
def value (file : DescriptorFile) : Field → Value
  | .name => optionalValue .string file.name
  | .version => optionalValue .string file.version
  | .format => optionalValue .string file.format
  | .maxConcurrency => optionalValue (fun n => .natural n.toNat) file.maxConcurrency
  | .timeout => optionalValue TimeoutSetting.toValue file.timeout
  | .path => optionalValue .string file.path

def toJson (file : DescriptorFile) : String :=
  (Value.object (Field.all.map fun field => (field.key, file.value field))).render .indented

/-- The file as it is read from `before` once the field has been read. -/
def put (field : Field) (source target : DescriptorFile) : DescriptorFile :=
  match field with
  | .name => { target with name := source.name }
  | .version => { target with version := source.version }
  | .format => { target with format := source.format }
  | .maxConcurrency => { target with maxConcurrency := source.maxConcurrency }
  | .timeout => { target with timeout := source.timeout }
  | .path => { target with path := source.path }

theorem readField_value (field : Field) (file before : DescriptorFile) :
    readField field (file.value field).toNode before = .ok (put field file before) := by
  cases field with
  | name | version | format | path =>
    rw [readField, value, optional_textValue]
    rfl
  | maxConcurrency =>
    have hread : Node.optional Node.word32 (file.value .maxConcurrency).toNode =
        .ok file.maxConcurrency :=
      optional_optionalValue (fun _ => by simp [Value.toNode]) word32_natural file.maxConcurrency
    rw [readField, hread]
    rfl
  | timeout =>
    have hread : Node.optional readTimeout (file.value .timeout).toNode = .ok file.timeout :=
      optional_optionalValue
        (fun setting => by cases setting <;> simp [TimeoutSetting.toValue, Value.toNode])
        readTimeout_toValue file.timeout
    rw [readField, hread]
    rfl

/-- Reading the fields of a list in turn puts them all. -/
theorem readsAll_value (file : DescriptorFile) (fields : List Field) (before : DescriptorFile) :
    record.ReadsAll (fun field => [(some field.key, (file.value field).toNode)]) fields before
      (fields.foldl (fun target field => put field file target) before) := by
  induction fields generalizing before with
  | nil => exact .nil before
  | cons field rest ih => exact .cons (.present (readField_value field file before)) (ih _)

theorem ofJson?_toJson (file : DescriptorFile) : ofJson? file.toJson = some file := by
  have hnode : (Value.object (Field.all.map fun field => (field.key, file.value field))).toNode =
      .object (Field.all.flatMap fun field => [(some field.key, (file.value field).toNode)]) := by
    rw [Value.toNode, memberNodes_eq_map, List.map_map]
    rfl
  have hfield : ∀ field ∈ Field.all, record.field? (record.name field) = some field := by
    decide
  have hdecode : record.decode
      (.object (Field.all.flatMap fun field => [(some field.key, (file.value field).toNode)])) =
        .ok file :=
    Record.decode_object_of_readsAll (readsAll_value file Field.all {}) (by decide) hfield
      (fun _ _ => rfl)
  rw [ofJson?, toJson, Record.decodeText_render, hnode, hdecode]
  rfl

end DescriptorFile

/-! ## Func files in a directory -/

/-- The descriptor of a file whose timeout comes to `timeout`. -/
def DescriptorFile.withTimeout (file : DescriptorFile) (timeout : Option UInt64) : Descriptor where
  name := file.name
  version := file.version
  format := file.format
  maxConcurrency := file.maxConcurrency
  timeout := timeout
  path := file.path

theorem DescriptorFile.toDescriptor_of_timeout {file : DescriptorFile} {setting : TimeoutSetting}
    (hsetting : file.timeout = some setting) {n : UInt64} (hn : setting.toSeconds = .ok n) :
    file.toDescriptor = .ok (file.withTimeout (some n)) := by
  rw [toDescriptor, hsetting, Option.mapM_some, hn]
  rfl

namespace Descriptor

/-- What the func file of a directory holds, in whatever format it is. -/
def Finds (files : Files) (directory : String) (file : DescriptorFile) : Prop :=
  ∃ path text format, locate? files directory = some path ∧ files.readText? path = some text ∧
    DescriptorFormat.ofPath? path = some format ∧ format.read? text = some file

theorem parse_of_read? {files : Files} {path text : String} {format : DescriptorFormat}
    {file : DescriptorFile} {descriptor : Descriptor} (htext : files.readText? path = some text)
    (hformat : DescriptorFormat.ofPath? path = some format) (hread : format.read? text = some file)
    (hdescriptor : file.toDescriptor = .ok descriptor) : parse files path = .ok descriptor := by
  rw [parse, htext, hformat]
  dsimp only
  rw [hread]
  exact congrArg (Except.mapError _) hdescriptor

theorem load_of_finds {files : Files} {directory : String} {file : DescriptorFile}
    (h : Finds files directory file) {descriptor : Descriptor}
    (hdescriptor : file.toDescriptor = .ok descriptor) :
    load files directory = .ok (some descriptor) := by
  obtain ⟨path, text, format, hlocate, htext, hformat, hread⟩ := h
  rw [load, hlocate]
  exact congrArg (some <$> ·) (parse_of_read? htext hformat hread hdescriptor)

/-- The file that says what the descriptor says. -/
def toFile (descriptor : Descriptor) : DescriptorFile where
  name := descriptor.name
  version := descriptor.version
  format := descriptor.format
  maxConcurrency := descriptor.maxConcurrency
  timeout := descriptor.timeout.map .seconds
  path := descriptor.path

theorem toDescriptor_toFile (descriptor : Descriptor) :
    descriptor.toFile.toDescriptor = .ok descriptor := by
  obtain ⟨name, version, format, maxConcurrency, timeout, path⟩ := descriptor
  cases timeout <;> rfl

/-- The topmost directory with the func file of a descriptor in it. -/
def directory (descriptor : Descriptor) : Files where
  workingDirectory := "/"
  entries := [("func.json", .file descriptor.toFile.toJson.toUTF8)]

theorem workingPlace_directory (descriptor : Descriptor) :
    descriptor.directory.workingPlace = [] := by
  have hparts : Files.parts "/" = [] := by decide
  rw [Files.workingPlace, directory, hparts]
  rfl

theorem start_directory (descriptor : Descriptor) (path : String) :
    descriptor.directory.start path = [] := by
  rw [Files.start, workingPlace_directory, ite_self]

/-- A single name leads to that name, past the topmost directory alone. -/
theorem target_directory (descriptor : Descriptor) {path name : String}
    (h : Files.parts path = [name]) (hname : name ≠ "." ∧ name ≠ "..") :
    descriptor.directory.target path = [name] := by
  rw [Files.target, start_directory, h, List.foldl_cons, Files.stepInto, if_neg hname.1,
    if_neg hname.2]
  rfl

theorem passed_directory (descriptor : Descriptor) {path name : String}
    (h : Files.parts path = [name]) : descriptor.directory.passed path = [[]] := by
  rw [Files.passed, start_directory, h]
  rfl

theorem entryAt?_directory (descriptor : Descriptor) (place : Files.Place) :
    descriptor.directory.entryAt? place =
      if place = ["func.json"] then some (.file descriptor.toFile.toJson.toUTF8)
      else if place = [] then some .directory else none := by
  have hparts : Files.parts "func.json" = ["func.json"] := by decide
  have htarget : descriptor.directory.target "func.json" = ["func.json"] :=
    target_directory descriptor hparts (by decide)
  have hpassed := passed_directory descriptor hparts
  have hentries : descriptor.directory.entries =
      [("func.json", .file descriptor.toFile.toJson.toUTF8)] := rfl
  have hway : descriptor.directory.isOnTheWay place = decide (place = []) := by
    rw [Files.isOnTheWay, workingPlace_directory, hentries]
    cases place <;> simp [hpassed]
  rw [Files.entryAt?, hway, hentries]
  by_cases hplace : place = ["func.json"]
  · simp [List.findRev?, htarget, hplace]
  · simp [List.findRev?, htarget, hplace, Ne.symm hplace]

theorem find?_directory (descriptor : Descriptor) {path name : String}
    (h : Files.parts path = [name]) (hname : name ≠ "." ∧ name ≠ "..")
    (hopen : path.toList.getLast? ≠ some '/') :
    descriptor.directory.find? path =
      if name = "func.json" then some (.file descriptor.toFile.toJson.toUTF8) else none := by
  have hempty : Files.parts "" ≠ [name] := by
    have hnone : Files.parts "" = [] := by decide
    rw [hnone]
    exact nofun
  have hpath : path.isEmpty = false := by
    refine Bool.eq_false_iff.mpr fun hpath => hempty ?_
    rw [← String.isEmpty_iff.mp hpath, h]
  rw [Files.find?, passed_directory descriptor h, target_directory descriptor h hname]
  by_cases hfile : name = "func.json"
  · simp [hpath, Files.isDirectory, entryAt?_directory, hopen, FileEntry.isDirectory, hfile]
  · simp [hpath, Files.isDirectory, entryAt?_directory, hopen, FileEntry.isDirectory, hfile]

/-- A directory can hold any descriptor. -/
theorem load_directory (descriptor : Descriptor) :
    load descriptor.directory descriptor.directory.workingDirectory = .ok (some descriptor) := by
  have htoml : descriptor.directory.find? "/func.toml" = none :=
    find?_directory descriptor (by decide : Files.parts "/func.toml" = ["func.toml"]) (by decide)
      (by decide)
  have hjson : descriptor.directory.find? "/func.json" =
      some (.file descriptor.toFile.toJson.toUTF8) :=
    find?_directory descriptor (by decide : Files.parts "/func.json" = ["func.json"]) (by decide)
      (by decide)
  have hnames : fileNames.map (joinPath "/") = ["/func.toml", "/func.json"] := by decide
  have hlocate : locate? descriptor.directory "/" = some "/func.json" := by
    rw [locate?, hnames]
    simp [Files.isFile, htoml, hjson]
  have hread : descriptor.directory.readText? "/func.json" = some descriptor.toFile.toJson := by
    rw [Files.readText?, hjson]
    exact Http.fromUTF8?_toUTF8 _
  have hfinds : Finds descriptor.directory "/" descriptor.toFile :=
    ⟨"/func.json", _, .json, hlocate, hread, by decide, DescriptorFile.ofJson?_toJson _⟩
  exact load_of_finds hfinds (toDescriptor_toFile descriptor)

end Descriptor
end AppRoutes
