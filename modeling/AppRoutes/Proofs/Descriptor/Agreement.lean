/-
The func file of a directory, in either format.

A directory answers with the func file in TOML where there is one, and else with the one in JSON.
Both formats say the same: whatever file a descriptor is written to, it is the descriptor that comes
back, so what a command does is settled by the descriptor and not by the format.
-/
import AppRoutes.Delta.Resolve
import AppRoutes.Proofs.Descriptor.Formats

namespace AppRoutes

/-- A name joined to a directory stands after a slash, or alone. -/
theorem toList_joinPath (directory name : String) :
    (joinPath directory name).toList = name.toList ∨
      ∃ before, (joinPath directory name).toList = before ++ '/' :: name.toList := by
  rw [joinPath]
  by_cases hempty : directory.isEmpty = true
  · rw [if_pos hempty]
    exact Or.inl rfl
  · rw [if_neg hempty]
    by_cases hslash : directory.toList.getLast? = some '/'
    · obtain ⟨before, hbefore⟩ := List.getLast?_eq_some_iff.mp hslash
      rw [if_pos hslash, String.toList_append, hbefore, List.append_assoc]
      exact Or.inr ⟨before, rfl⟩
    · rw [if_neg hslash, String.toList_append, String.toList_append, List.append_assoc]
      exact Or.inr ⟨directory.toList, rfl⟩

/-- The last part of a path is the name that was joined to it. -/
theorem getLast?_parts_joinPath (directory : String) {name : String} (hname : name ≠ "")
    (hslash : '/' ∉ name.toList) :
    (Files.parts (joinPath directory name)).getLast? = some name := by
  have hsome : name.toList.isEmpty = false := by
    rw [List.isEmpty_eq_false_iff]
    exact fun hnil => hname (String.toList_eq_nil_iff.mp hnil)
  have hsingle : Text.split '/' name.toList = [name.toList] := Text.split_of_not_mem hslash
  obtain hjoined | ⟨before, hjoined⟩ := toList_joinPath directory name
  · rw [Files.parts, hjoined, hsingle]
    simp [hsome]
  · rw [Files.parts, hjoined, Text.split_append_separator, hsingle, List.filter_append,
      List.map_append]
    simp [hsome]

namespace DescriptorFormat

/-- The name of the func file in a format. -/
def fileName (format : DescriptorFormat) : String := "func." ++ format.extension

/-- Where the func file in a format lies in a directory. -/
def pathIn (format : DescriptorFormat) (directory : String) : String :=
  joinPath directory format.fileName

theorem ofPath?_pathIn (format : DescriptorFormat) (directory : String) :
    ofPath? (format.pathIn directory) = some format := by
  have hlast : (Files.parts (format.pathIn directory)).getLast? = some format.fileName := by
    cases format <;> exact getLast?_parts_joinPath directory (by decide) (by decide)
  rw [ofPath?, hlast]
  cases format <;> decide

end DescriptorFormat

namespace Descriptor

open DescriptorFormat

theorem locate?_eq (files : Files) (directory : String) :
    locate? files directory =
      if files.isFile (toml.pathIn directory) then some (toml.pathIn directory)
      else if files.isFile (json.pathIn directory) then some (json.pathIn directory) else none := by
  have hpaths : fileNames.map (joinPath directory) =
      [toml.pathIn directory, json.pathIn directory] := rfl
  rw [locate?, hpaths, List.find?_cons, List.find?_cons, List.find?_nil]
  cases files.isFile (toml.pathIn directory) <;>
    cases files.isFile (json.pathIn directory) <;> rfl

theorem isFile_of_readText? {files : Files} {path text : String}
    (h : files.readText? path = some text) : files.isFile path = true := by
  rw [Files.readText?] at h
  rw [Files.isFile]
  cases hfound : files.find? path with
  | none => simp [hfound] at h
  | some entry =>
    cases entry with
    | file content => rfl
    | directory => simp [hfound] at h

/-- The text is what the func file of the directory holds, in this format. -/
inductive HoldsText (files : Files) (directory : String) : DescriptorFormat → String → Prop
  | toml {text : String} (h : files.readText? (toml.pathIn directory) = some text) :
      HoldsText files directory toml text
  | json {text : String} (hnone : files.isFile (toml.pathIn directory) = false)
      (h : files.readText? (json.pathIn directory) = some text) :
      HoldsText files directory json text

theorem locate?_of_holdsText {files : Files} {directory text : String} {format : DescriptorFormat}
    (h : HoldsText files directory format text) :
    locate? files directory = some (format.pathIn directory) ∧
      files.readText? (format.pathIn directory) = some text := by
  rw [locate?_eq]
  cases h with
  | toml h => simp [isFile_of_readText? h, h]
  | json hnone h => simp [hnone, isFile_of_readText? h, h]

theorem isFile_congr {files files' : Files} {path : String}
    (h : files'.find? path = files.find? path) : files'.isFile path = files.isFile path := by
  rw [Files.isFile, h, Files.isFile]

/-- What a file is parsed to depends on what is found there alone. -/
theorem parse_congr {files files' : Files} {path : String}
    (h : files'.find? path = files.find? path) : parse files' path = parse files path := by
  have htext : files'.readText? path = files.readText? path := by
    rw [Files.readText?, h, Files.readText?]
  rw [parse, htext, parse]

/-- A func file in TOML answers alone. -/
theorem load_of_isFile {files : Files} {directory : String}
    (h : files.isFile (toml.pathIn directory) = true) :
    load files directory = some <$> parse files (toml.pathIn directory) := by
  rw [load, locate?_eq, if_pos h]

/-- The text is a file of the descriptor in the format. -/
def IsFileIn (descriptor : Descriptor) : DescriptorFormat → String → Prop
  | .toml => descriptor.IsTomlFile
  | .json => descriptor.IsJsonFile

theorem exists_isFileIn (descriptor : Descriptor) (format : DescriptorFormat) :
    ∃ text, descriptor.IsFileIn format text := by
  cases format with
  | toml => exact descriptor.exists_isTomlFile
  | json => exact descriptor.exists_isJsonFile

theorem read?_of_isFileIn {descriptor : Descriptor} {format : DescriptorFormat} {text : String}
    (h : descriptor.IsFileIn format text) : format.read? text = some descriptor.toFile := by
  cases format with
  | toml => exact ofToml?_of_isTomlFile h
  | json => exact ofJson?_of_isJsonFile h

theorem load_of_holdsText {descriptor : Descriptor} {format : DescriptorFormat} {text : String}
    (h : descriptor.IsFileIn format text) {files : Files} {directory : String}
    (hholds : HoldsText files directory format text) :
    load files directory = .ok (some descriptor) := by
  obtain ⟨hlocate, htext⟩ := locate?_of_holdsText hholds
  have hfinds : Finds files directory descriptor.toFile :=
    ⟨_, text, format, hlocate, htext, ofPath?_pathIn format directory, read?_of_isFileIn h⟩
  exact load_of_finds hfinds descriptor.toDescriptor_toFile

/-- A descriptor comes back from each of its files, and there is one in either format.  So files of
both formats lead to the same route and the same changes.  Where a directory holds both, the one in
TOML answers, whatever the other is. -/
theorem formats_agree (descriptor : Descriptor) :
    (∀ format, ∃ text, descriptor.IsFileIn format text) ∧
    (∀ format text, descriptor.IsFileIn format text →
      (∀ files path, files.readText? path = some text → ofPath? path = some format →
        parse files path = .ok descriptor) ∧
      ∀ files directory, HoldsText files directory format text →
        load files directory = .ok (some descriptor)) ∧
    (∀ format text format' text', descriptor.IsFileIn format text →
      descriptor.IsFileIn format' text' →
      ∀ files directory files' directory', HoldsText files directory format text →
        HoldsText files' directory' format' text' →
        ∀ mode path flags, (load files directory).map (resolve mode path flags) =
          (load files' directory').map (resolve mode path flags)) ∧
    ∀ files directory, files.isFile (toml.pathIn directory) = true →
      load files directory = some <$> parse files (toml.pathIn directory) ∧
      ∀ files' : Files,
        files'.find? (toml.pathIn directory) = files.find? (toml.pathIn directory) →
        load files' directory = load files directory := by
  have hload : ∀ format text, descriptor.IsFileIn format text → ∀ files directory,
      HoldsText files directory format text → load files directory = .ok (some descriptor) :=
    fun format text h files directory hholds => load_of_holdsText h hholds
  refine ⟨descriptor.exists_isFileIn, fun format text h => ⟨fun files path htext hformat => ?_,
    hload format text h⟩, ?_, fun files directory hfile => ⟨load_of_isFile hfile,
      fun files' hfound => ?_⟩⟩
  · exact parse_of_read? htext hformat (read?_of_isFileIn h) descriptor.toDescriptor_toFile
  · intro format text format' text' h h' files directory files' directory' hholds hholds' _ _ _
    rw [hload _ _ h _ _ hholds, hload _ _ h' _ _ hholds']
  · have hfile' := (isFile_congr hfound).trans hfile
    rw [load_of_isFile hfile', load_of_isFile hfile, parse_congr hfound]

/-! ## Files of both formats with an escaped text

The text is a quotation mark and a line end, the timeout is zero seconds, and a key that no
descriptor has stands beside them. -/

def escaped : Descriptor := { name := some "\"\n", timeout := some 0 }

def escapedToml : String := "name = \"\\\"\\n\"\nx = -5\ntimeout = 0\n"

def escapedJson : String := "\x7b\"timeout\":0, \"x\":[],\"name\":\"\\\"\\n\"\x7d"

/-- A directory with both func files, of which the one in JSON holds `other`, and a directory with
the one in JSON alone. -/
def escapedFiles (other : String) : Files where
  workingDirectory := "/"
  entries := [("/both/func.toml", .file escapedToml.toUTF8),
    ("/both/func.json", .file other.toUTF8), ("/one/func.json", .file escapedJson.toUTF8)]

theorem ne_key_of_escaped (field : DescriptorFile.Field) : "x" ≠ field.key := by
  cases field <;> decide

theorem isTomlFile_escaped : escaped.IsTomlFile escapedToml := by
  have hblank : Toml.IsBlanks [' '] := by simp [Toml.IsBlanks, Toml.isBlank]
  have hempty : Toml.IsBlanks [] := List.forall_mem_nil _
  have hline : ∀ {key : String} {value : Toml.Value} {lexeme : List Char}, Toml.IsBareKey key →
      Toml.SpellsValue value lexeme → Toml.SpellsMember (key, value)
        ([] ++ (key.toList ++ ([' '] ++ '=' :: ([' '] ++ (lexeme ++ []))))) :=
    fun hkey h => .intro hkey hempty hblank hblank hempty h
  have hquote : Toml.SpellsChar '"' ['\\', '"'] := .letter (by decide)
  have hbreak : Toml.SpellsChar '\n' ['\\', 'n'] := .letter (by decide)
  have hname : Toml.SpellsChars "\"\n".toList ['\\', '"', '\\', 'n'] :=
    .cons hquote (.cons hbreak .nil)
  have hkey : Toml.IsBareKey "x" := Toml.isBareKey_of_all (by decide) (by decide)
  have hother : Toml.SpellsValue (.integer (-5)) ['-', '5'] := .negative (n := 5) (by decide)
  have hzero : Toml.SpellsValue (.integer 0) ['0'] := .natural (n := 0) (by decide)
  have hlines : Toml.SpellsLines [("name", .string "\"\n"), ("x", .integer (-5)),
      ("timeout", .integer 0)] escapedToml.toList :=
    .cons (hline (isBareKey_key .name) (.text hname)) (.newline _)
      (.cons (hline hkey hother) (.newline _)
        (.cons (hline (isBareKey_key .timeout) hzero) (.newline _) .nil))
  refine ⟨_, hlines, by decide, [("x", .integer (-5))], by decide, fun other hmem field => ?_⟩
  rw [List.mem_singleton.mp hmem]
  exact ne_key_of_escaped field

open Json in
theorem isJsonFile_escaped : escaped.IsJsonFile escapedJson := by
  have hname : SpellsPieces [.char '"', .char '\n'] ['\\', '"', '\\', 'n'] :=
    .cons (.letter (by decide)) (.cons (.letter (by decide)) .nil)
  have hkey : SpellsToken (.string (some ['t', 'i', 'm', 'e', 'o', 'u', 't'])) _ :=
    .plain ['t', 'i', 'm', 'e', 'o', 'u', 't'] (by simp)
  have htext : IsObjectText escapedJson
      [("timeout", .natural 0), ("x", .array []), ("name", .string (some "\"\n"))] := by
    refine ⟨rfl, .next .leftBrace (.next hkey (.next .colon (.next (.natural 0) ?_)))⟩
    refine .next .comma (.cons [' '] (by simp [isSpace]) (.plain ['x'] (by simp)) (.next .colon ?_))
    refine .next .leftBracket (.next .rightBracket (.next .comma ?_))
    refine .next (.plain ['n', 'a', 'm', 'e'] (by simp)) (.next .colon ?_)
    exact .next (.text hname (.char '"' (.char '\n' .nil))) (.next .rightBrace (.nil (by simp)))
  refine ⟨_, htext, [("x", .array [])], ?_, fun other hmem field => ?_⟩
  · show ([_, _] ++ [_]).Perm ([_] ++ [_, _])
    exact List.perm_append_comm
  · rw [List.mem_singleton.mp hmem]
    exact ne_key_of_escaped field

theorem find?_escapedFiles (other : String) :
    (escapedFiles other).find? (toml.pathIn "/both") = some (.file escapedToml.toUTF8) ∧
      (escapedFiles other).find? (toml.pathIn "/one") = none ∧
      (escapedFiles other).find? (json.pathIn "/one") = some (.file escapedJson.toUTF8) := by
  have hentries : (escapedFiles other).entries = [("/both/func.toml", .file escapedToml.toUTF8),
      ("/both/func.json", .file other.toUTF8), ("/one/func.json", .file escapedJson.toUTF8)] := rfl
  have hpaths : toml.pathIn "/both" = "/both/func.toml" ∧ toml.pathIn "/one" = "/one/func.toml" ∧
      json.pathIn "/one" = "/one/func.json" := by decide
  have hparts : Files.parts "/both/func.toml" = ["both", "func.toml"] ∧
      Files.parts "/both/func.json" = ["both", "func.json"] ∧
      Files.parts "/one/func.toml" = ["one", "func.toml"] ∧
      Files.parts "/one/func.json" = ["one", "func.json"] := by decide
  have hworking : (escapedFiles other).workingPlace = [] := by
    have hroot : Files.parts "/" = [] := by decide
    show (Files.parts "/").foldl Files.stepInto [] = []
    rw [hroot]
    rfl
  have hstart : ∀ path, (escapedFiles other).start path = [] := fun path => by
    rw [Files.start, hworking, ite_self]
  simp [hpaths, Files.find?, Files.passed, Files.placesFrom, Files.isDirectory, Files.entryAt?,
    Files.target, Files.isOnTheWay, Files.stepInto, FileEntry.isDirectory, hstart, hparts, hentries,
    hworking]

/-- The file in JSON beside the one in TOML is a brace that nothing closes. -/
theorem formats_agree_escaped :
    escaped.IsFileIn toml escapedToml ∧ escaped.IsFileIn json escapedJson ∧
      HoldsText (escapedFiles "\x7b") "/both" toml escapedToml ∧
      HoldsText (escapedFiles "\x7b") "/one" json escapedJson ∧
      load (escapedFiles "\x7b") "/both" = .ok (some escaped) ∧
      load (escapedFiles "\x7b") "/one" = .ok (some escaped) ∧
      load (escapedFiles "\x7b") "/both" = load (escapedFiles escapedJson) "/both" ∧
      parse (escapedFiles "\x7b") (json.pathIn "/one") = .ok escaped ∧
      (load (escapedFiles "\x7b") "/both").map (resolve .update (some "/a") {}) =
        (load (escapedFiles "\x7b") "/one").map (resolve .update (some "/a") {}) := by
  obtain ⟨hboth, hnone, hone⟩ := find?_escapedFiles "\x7b"
  have htext : (escapedFiles "\x7b").readText? (toml.pathIn "/both") = some escapedToml := by
    rw [Files.readText?, hboth]
    exact Http.fromUTF8?_toUTF8 _
  have htext' : (escapedFiles "\x7b").readText? (json.pathIn "/one") = some escapedJson := by
    rw [Files.readText?, hone]
    exact Http.fromUTF8?_toUTF8 _
  have hholds : HoldsText (escapedFiles "\x7b") "/both" toml escapedToml := .toml htext
  have hholds' : HoldsText (escapedFiles "\x7b") "/one" json escapedJson :=
    .json (by rw [Files.isFile, hnone]) htext'
  have hfound := hboth.trans (find?_escapedFiles escapedJson).1.symm
  have hfile : (escapedFiles escapedJson).isFile (toml.pathIn "/both") = true :=
    (isFile_congr hfound).symm.trans (isFile_of_readText? htext)
  obtain ⟨-, hreads, hresolves, htoml⟩ := formats_agree escaped
  exact ⟨isTomlFile_escaped, isJsonFile_escaped, hholds, hholds',
    (hreads toml _ isTomlFile_escaped).2 _ _ hholds,
    (hreads json _ isJsonFile_escaped).2 _ _ hholds',
    (htoml _ _ hfile).2 _ hfound,
    (hreads json _ isJsonFile_escaped).1 _ _ htext' (ofPath?_pathIn json _),
    hresolves toml _ json _ isTomlFile_escaped isJsonFile_escaped _ _ _ _ hholds hholds' _ _ _⟩

end Descriptor
end AppRoutes
