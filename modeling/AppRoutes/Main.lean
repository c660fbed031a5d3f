/-
The program: gathers what a run finds, runs it, and prints the outcome.

The program has no connection of its own to a network, so the server is out of reach.
-/
import AppRoutes.Program.Run

namespace AppRoutes.Program

/-- The number of the system's error on reading a directory. -/
def directoryCode : UInt32 := 21

/-- What a path leads to; what cannot be read counts as a directory. -/
def readEntry (path : String) : IO (Option FileEntry) := do
  try
    return some (.file (← IO.FS.readBinFile path))
  catch
    | .noFileOrDirectory .. | .invalidArgument .. => return none
    | .inappropriateType _ code _ =>
      return if code = directoryCode then some .directory else none
    | _ => return some .directory

def gatherEnvironment (words : List String) : IO Environment := do
  let found ← (variablesOf words).mapM fun name => do
    return (← IO.getEnv name).map (fun value => (name, value))
  return found.filterMap id

def gatherFiles (workingDirectory : String) (environment : Environment) : IO Files := do
  let found ← (pathsOf workingDirectory environment).mapM fun path => do
    return (← readEntry path).map (fun entry => (path, entry))
  return { workingDirectory, entries := found.filterMap id }

/-- All that is left in a stream. -/
partial def readAll (stream : IO.FS.Stream) (start : ByteArray) : IO ByteArray := do
  let chunk ← stream.read 65536
  if chunk.isEmpty then return start
  readAll stream (start ++ chunk)

def gatherInput : IO (Option ByteArray) := do
  let stdin ← IO.getStdin
  if ← stdin.isTty then return none
  return some (← readAll stdin ByteArray.empty)

def gatherWorld (words : List String) : IO World := do
  let workingDirectory := (← IO.currentDir).toString
  let environment ← gatherEnvironment words
  let files ← gatherFiles workingDirectory environment
  let input ← if readsInput words then gatherInput else pure none
  let palette : Terminal.Palette :=
    if ← (← IO.getStdout).isTty then .colored else .plain
  return { files, environment, input, palette, exchange := { isReachable := false } }

end AppRoutes.Program

open AppRoutes.Program in
def main (words : List String) : IO UInt32 := do
  let outcome := run (← gatherWorld words) words
  let stdout ← IO.getStdout
  stdout.write outcome.output
  stdout.flush
  (← IO.getStderr).putStr outcome.diagnostics
  return outcome.exitCode.toUInt32
