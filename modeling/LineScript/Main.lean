import LineScript.CommandLine.Program
import LineScript.Json.Parser
import LineScript.Library.Reader

/-!
# The command `otto`

Reads the files that the arguments name and the console, carries the command out, and then writes
and pauses as it says. A library file holds a declared library.
-/

namespace LineScript.Main

open CommandLine (Files FileContent Path)

/-- The most steps of a run, and the most levels of runs inside runs. -/
def bounds : Nat × Nat := (100000000, 200)

/-- The version of the runtime that the version text names. -/
def runtime : String := "3.11"

/-- The content of a library file. -/
def libraryContent (bytes : ByteArray) : FileContent :=
  match (String.fromUTF8? bytes).bind Json.parse? |>.bind Library.Recipe.ofJson? with
  | some recipe => .library recipe
  | none => .failing

/-- Files with one more file, or one more directory, if a path leads to one. -/
def addFile (files : Files) (path : Path) : IO Files := do
  try
    let bytes ← IO.FS.readBinFile path.shown
    let isLibrary :=
      (path.names.getLast?.map fun name =>
        Files.librarySuffix.toList.isSuffixOf name.toList).getD false
    let content := if isLibrary then libraryContent bytes else .bytes bytes
    return { files with contents := (path, content) :: files.contents }
  catch error =>
    match error with
    | .inappropriateType .. => return { files with directories := path :: files.directories }
    | _ => return files

/-- The paths that an argument may lead to. -/
def candidates (directory : Path) (argument : String) : List Path :=
  let path := directory.resolve argument
  let others := (path.withSuffix? Files.librarySuffix).toList
  let named := path :: others
  named ++ named.map fun path => path.child Files.directoryFile

/-- The files that the arguments may lead to. -/
def filesFor (arguments : List String) : IO Files := do
  let directory := Path.resolve ⟨[]⟩ (toString (← IO.currentDir))
  let paths := (arguments.flatMap (candidates directory)).eraseDups
  paths.foldlM addFile ⟨directory, [], []⟩

/-- The variables of the process that matter. -/
def readEnvironment : IO Environment := do
  let names := [Options.commonVariable, Options.levelVariable]
  return (← names.mapM fun name => return (← IO.getEnv name).map fun value => (name, value))
    |>.filterMap id

/-- The bytes that are left in a stream. -/
partial def readRest (stream : IO.FS.Stream) (read : ByteArray) : IO ByteArray := do
  let bytes ← stream.read 65536
  if bytes.isEmpty then return read else readRest stream (read ++ bytes)

/-- The console with some bytes to read, which fails if they are no text. -/
def consoleOf (bytes : ByteArray) : Console :=
  match String.fromUTF8? bytes with
  | some content => { input := Text.unifyBreaks content.toList }
  | none => { input := [], broken := some .notText }

/-- Let what has happened happen. -/
def replay : Library.Happening → IO Unit
  | .wrote content => IO.print content
  | .slept seconds =>
    let (num, den) := seconds.quotient
    IO.sleep (num * 1000 / den).toUInt32
  | _ => return ()

/-- Carry out the command and answer its exit code. -/
def run (arguments : List String) : IO UInt32 := do
  let invocation : CommandLine.Invocation := {
    arguments := arguments
    environment := ← readEnvironment
    files := ← filesFor arguments
    runtime := runtime }
  let input ← readRest (← IO.getStdin) ByteArray.empty
  let (fuel, levels) := bounds
  let engine : Engine := { options := ⟨.bool true, []⟩, registrations := [] }
  let memory : Library.Memory := { console := consoleOf input }
  let session : Session Library.Memory := {
    state := []
    world := { engine := engine, notices := [], memory := memory } }
  let (result, session) :=
    (CommandLine.command (Library.host fuel levels) fuel invocation).run session
  session.world.memory.happenings.reverse.forM replay
  match result with
  | .ok .finished => return 0
  | .ok (.refused message) => IO.eprintln message; return 1
  | .ok (.misused report) => IO.eprint report; return 2
  | .error (.fault fault) => IO.eprintln fault.message; return 1
  | .error (.abort _ message) => IO.eprintln message; return 1
  | .error .outOfFuel => IO.eprintln "too many steps"; return 1

end LineScript.Main

/-- The command line. -/
def main (arguments : List String) : IO UInt32 :=
  LineScript.Main.run arguments
