/-
Files and directories.

A path is a text, and a place is what it comes to: the names of directories from the topmost
one down, with a name at the end.  Joining two paths puts a slash between them and changes
nothing else; only looking a path up takes its parts apart.  A relative path starts at the
working directory.  One dot stays at a place and two dots go to the directory above it, which
for the topmost directory is that directory itself.
-/
import AppRoutes.Text.Split

namespace AppRoutes
open Text

inductive FileEntry where
  | file (content : ByteArray)
  | directory

def FileEntry.isDirectory : FileEntry → Bool
  | .file _ => false
  | .directory => true

structure Files where
  /-- The path of the working directory, from the topmost directory. -/
  workingDirectory : String
  /-- What there is, by paths; of two entries at one place the later one counts.  A directory
  on the way to an entry or to the working directory need not be listed itself. -/
  entries : List (String × FileEntry) := []

def joinPath (directory name : String) : String :=
  if directory.isEmpty then name
  else if directory.toList.getLast? = some '/' then directory ++ name
  else directory ++ "/" ++ name

namespace Files

/-- The parts of a path between its slashes. -/
def parts (path : String) : List String :=
  ((split '/' path.toList).filter (fun part => !part.isEmpty)).map String.ofList

abbrev Place : Type := List String

/-- The place that one part of a path leads to. -/
def stepInto (place : Place) (part : String) : Place :=
  if part = "." then place
  else if part = ".." then place.dropLast
  else place ++ [part]

/-- The places on a way that starts at a place, the last one included. -/
def placesFrom (place : Place) : List String → List Place
  | [] => [place]
  | part :: rest => place :: placesFrom (stepInto place part) rest

/-- The place of the working directory. -/
def workingPlace (files : Files) : Place := (parts files.workingDirectory).foldl stepInto []

def start (files : Files) (path : String) : Place :=
  if path.toList.head? = some '/' then [] else files.workingPlace

/-- The place that a path leads to if all is there that it passes. -/
def target (files : Files) (path : String) : Place :=
  (parts path).foldl stepInto (files.start path)

/-- The places that a path passes before its last part. -/
def passed (files : Files) (path : String) : List Place :=
  (placesFrom (files.start path) (parts path)).dropLast

/-- Whether something lies below a place. -/
def isOnTheWay (files : Files) (place : Place) : Bool :=
  place.isPrefixOf files.workingPlace ||
    files.entries.any (fun entry => (files.passed entry.1).contains place)

def entryAt? (files : Files) (place : Place) : Option FileEntry :=
  match files.entries.findRev? (fun entry => files.target entry.1 = place) with
  | some (_, entry) => some entry
  | none => if files.isOnTheWay place then some .directory else none

def isDirectory (files : Files) (place : Place) : Bool :=
  (files.entryAt? place).any FileEntry.isDirectory

/-- What a path leads to.  All places that it passes have to be directories, and so has the
last one if a slash follows it. -/
def find? (files : Files) (path : String) : Option FileEntry :=
  if path.isEmpty || !(files.passed path).all files.isDirectory then none
  else
    let isClosed := path.toList.getLast? = some '/'
    (files.entryAt? (files.target path)).filter (fun entry => !isClosed || entry.isDirectory)

def isFile (files : Files) (path : String) : Bool :=
  match files.find? path with
  | some (.file _) => true
  | _ => false

def readText? (files : Files) (path : String) : Option String :=
  match files.find? path with
  | some (.file content) => String.fromUTF8? content
  | _ => none

end Files
end AppRoutes
