import LineScript.CommandLine.Arguments
import LineScript.CommandLine.Files
import LineScript.CommandLine.Rendered
import LineScript.Library.Host

/-!
# The command

The command runs scripts one after the other on one state. It reads its arguments, makes an
engine with the bundled actions and the given libraries, in this order, reads all scripts, and
only then runs the first of them. Without a script it runs what it reads from the console.

Faults in options, libraries and scripts end the command with a message. A script file that is a
directory or no text, a console that cannot be read, and an abort end it without one.
-/

namespace LineScript.CommandLine

/-- What the command is used with. -/
structure Invocation where
  arguments : List String
  environment : Environment
  files : Files
  runtime : String

/-- How the command ends: as it should, with a message about a failure, or with a report about a
mistake in its arguments. -/
inductive Ending where
  | finished
  | refused (message : String)
  | misused (report : String)
deriving DecidableEq, Repr

/-- The end of the names of scripts. -/
def scriptSuffix : String := ".txt"

/-- Whether a path names a script. -/
def isScript (path : String) : Bool :=
  scriptSuffix.toList.isSuffixOf path.toList

/-- The message of a failed command. -/
def errorMessage (message : String) : String :=
  "ERROR: " ++ message

open Library (Memory)

/-- Register a library, which is that of a file or a directory. -/
def registerLibrary (files : Files) (path : String) : Query Memory Bool := do
  match files.library? (files.directory.resolve path) with
  | none => return false
  | some recipe =>
    let made ← tryCatch (some <$> recipe.make) fun failure =>
      match failure with
      | .fault _ => return none
      | failure => throw failure
    match made with
    | none => return false
    | some actions =>
      Query.modifyEngine fun engine => engine.register actions
      return true

/-- Register libraries up to the first one that cannot be registered, and answer that one. -/
def registerLibraries (files : Files) : List String → Query Memory (Option String)
  | [] => return none
  | path :: others => do
    if ← registerLibrary files path then registerLibraries files others else return some path

/-- The texts of scripts, or the first one that is not there. -/
def readScripts (files : Files) : List Path → Except Fault (Except Path (List String))
  | [] => .ok (.ok [])
  | path :: others => do
    if !files.isThere path then return .error path
    let content ← files.text path
    match ← readScripts files others with
    | .error missing => return .error missing
    | .ok contents => return .ok (content :: contents)

/-- All that is left to read from the console. -/
def readConsole : Query Memory String := do
  let (content, console) := (← Memory.read).console.takeAll
  Memory.change fun memory => { memory with console := console }
  return String.ofList (← Query.ofExcept content)

/-- The scripts to run: those that were given, or else what is read from the console. -/
def scriptsOrConsole (contents : List String) : Query Memory (List String) := do
  if contents.isEmpty then return [← readConsole] else return contents

/-- Run scripts one after the other. -/
def runScripts (host : Host Memory) (fuel : Nat) : List String → Procedure Memory Unit
  | [] => return ()
  | content :: others => do
    Run.script host fuel (.text content)
    runScripts host fuel others

/-- Write the final state, without the entries that were given. -/
def writeState (format : Option String) (given : List String) : Procedure Memory Unit := do
  match format with
  | none => return ()
  | some format =>
    match renderState ((← Procedure.state).visible given) format with
    | .ok rendered => if !rendered.isEmpty then Query.lift (Memory.write rendered)
    | .error fault => throw (.fault fault)

/-- Run the scripts of a request in an engine that has been made, on the initial state. -/
def serve (host : Host Memory) (fuel : Nat) (files : Files) (request : Request)
    (given : Entries Value) : Procedure Memory Ending := do
  if !request.noBundled then
    Query.lift (Query.modifyEngine fun engine =>
      engine.register (.list (Bundled.actions.map .action)))
  let libraries := request.paths.filter fun path => !isScript path
  match ← registerLibraries files libraries with
  | some path =>
    return .refused (errorMessage ("unable to register library \"" ++
      (files.directory.resolve path).shown ++ "\""))
  | none => pure ()
  match readScripts files ((request.paths.filter isScript).map files.directory.resolve) with
  | .error fault => throw (.fault fault)
  | .ok (.error missing) =>
    return .refused (errorMessage ("file could not be loaded: " ++ missing.shown))
  | .ok (.ok contents) =>
    let contents ← Query.lift (scriptsOrConsole contents)
    Procedure.modifyState fun _ => given
    match ← Procedure.attempt (runScripts host fuel contents) with
    | .error (.fault fault) => return .refused (errorMessage fault.message)
    | .error failure => throw failure
    | .ok _ =>
      writeState request.output given.names
      return .finished

/-- Carry out the command. -/
def command (host : Host Memory) (fuel : Nat) (invocation : Invocation) :
    Procedure Memory Ending := do
  let (arguments, given) := splitStateOptions invocation.arguments
  match readArguments arguments with
  | .error fault => return .misused fault.report
  | .ok .help =>
    Query.lift (Memory.writeText helpText)
    return .finished
  | .ok .version =>
    Query.lift (Memory.writeText (versionText invocation.runtime))
    return .finished
  | .ok (.request request) =>
    match Options.loadSettings invocation.environment given with
    | .error (.invalidCommon problem) =>
      return .refused (errorMessage ("invalid options: " ++
        (Fault.invalidCommon problem).message))
    | .error fault => throw (.fault fault)
    | .ok options =>
      Query.lift (Query.modifyEngine fun _ => Engine.ofOptions options)
      serve host fuel invocation.files request given

end LineScript.CommandLine
