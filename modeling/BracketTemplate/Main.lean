import BracketTemplate.CommandLine.Run
import Std.Time.DateTime.Timestamp

/-!
# The process

Reads the arguments, the files below the current directory and below the directories that the
arguments name, and the standard input if it is asked for; runs the command; writes what it leaves.
-/

namespace BracketTemplate.Process

/-- What there is at a path of the file system and below it, a link to a directory apart. -/
partial def entriesAt (place : Place) (path : String) : IO (List (Place × FileEntry)) := do
  try
    let real ← IO.FS.realPath path
    let info ← real.metadata
    match info.type with
    | .dir =>
      if real.toString ≠ path then return []
      let below ← (← real.readDir).toList.mapM fun entry =>
        let inside := if path = "/" then "" else path
        entriesAt (place ++ [entry.fileName.toList]) (inside ++ "/" ++ entry.fileName)
      return (place, .directory) :: below.flatten
    | .file =>
      let time := info.modified
      let content ← IO.FS.readBinFile path
      return [(place, .file content.toList (time.sec * 1000000000 + time.nsec.toNat))]
    | _ => return []
  catch _ => return []

/-- The directories on the way to a place. -/
def directoriesAbove (place : Place) : List (Place × FileEntry) :=
  (List.range place.length).map fun n => (place.take n, .directory)

/-- The place of a path, seen from the current directory. -/
def placeFrom (cwd : Path) (path : Path) : Place :=
  FileTree.placeOf ⟨[], [], 0⟩ (path.absoluteFrom cwd)

/-- Places without those that are below others. -/
def outermost (places : List Place) : List Place :=
  places.eraseDups.filter fun place =>
    !places.any fun other => other ≠ place ∧ other.isPrefixOf place

/-- A file tree with what there is at some paths. -/
def loadTree (cwd : Path) (now : Int) (paths : List Path) : IO FileTree := do
  let places := (cwd :: paths).map (placeFrom cwd)
  let found ← (outermost places).mapM fun place => do
    let below ← entriesAt place (String.ofList (joinWith '/' ([] :: place)))
    return directoriesAbove place ++ below
  return ⟨found.flatten, placeFrom cwd cwd, now⟩

/-- The paths that an invocation names. -/
def namedPaths (i : Invocation) : List Path :=
  let named := match i.command with
    | .check file => file.toList
    | .render file _ variableFile => file.toList ++ variableFile.toList
    | _ => []
  i.project :: named

/-- Writes the files that are not what they were. -/
def saveChanges (before after : FileTree) : IO Unit := do
  for (place, entry) in after.entries do
    match entry with
    | .file content _ =>
      if before.find? place ≠ some entry then
        IO.FS.writeBinFile (String.ofList (joinWith '/' ([] :: place))) ⟨content.toArray⟩
    | .directory => pure ()

/-- Reads a stream to its end. -/
partial def readAll (stream : IO.FS.Stream) (done : Bytes) : IO Bytes := do
  let chunk ← stream.read 65536
  if chunk.isEmpty then return done else readAll stream (done ++ chunk.toList)

/-- Runs an invocation in the file system. -/
def run (i : Invocation) : IO UInt32 := do
  let now := (← Std.Time.Timestamp.now).toNanosecondsSinceUnixEpoch.val
  let cwd := Path.ofString (← IO.currentDir).toString
  let named := namedPaths i
  let settings ← loadTree cwd now named
  let files ← match Config.load settings i.project with
    | .ok config => loadTree cwd now (named ++ [config.templateRoot i.project])
    | .error _ => pure settings
  let input ← if i.command.readsInput then readAll (← IO.getStdin) [] else pure []
  let outcome := i.run { files, now, input }
  saveChanges files outcome.files
  (← IO.getStdout).write ⟨outcome.output.toArray⟩
  (← IO.getStderr).write ⟨outcome.error.toArray⟩
  return outcome.code.toUInt32

end BracketTemplate.Process

open BracketTemplate in
/-- Runs what the arguments ask for. -/
def main (args : List String) : IO UInt32 := do
  match Invocation.ofArguments? args with
  | some i => Process.run i
  | none =>
    IO.eprintln CommandLine.usage
    return 2
