import LineScript.Run.Line

/-!
# Running a script

Before a script is run every text line has to be recognized by some action; all lines that are
not are reported together. The lines of a script that is *approved* so are executed from a queue
that ends with FINISH. Lines that replace a line go to the front of the queue. A line that stops
the script leaves only FINISH, unless FINISH has been started already; a line that fails lets
FINISH be executed once as cleanup, and its fault remains the result.

While a script runs the state holds the engine and the line at hand; afterwards it holds neither.
-/

namespace LineScript.Run

variable {Memory : Type}

/-- The FINISH line. -/
def finishLine : Line := .sentinel .finish

/-- The numbered lines of a script: a text, a list, the keys of a mapping, or a stream. -/
def scriptLines (host : Host Memory) (fuel : Nat) : Value → Query Memory (List (Nat × Line))
  | .text content => return Script.ofText content
  | .list items => return Script.ofItems items
  | .tuple items => return Script.ofItems items
  | .dict entries => return Script.ofItems (entries.map Prod.fst)
  | .stream id false => return Script.ofItems (← Registration.drain host id fuel)
  | .options ⟨common, extras⟩ =>
    return Script.ofItems ((("common", common) :: extras).map fun entry =>
      .tuple [.text entry.1, entry.2])
  | value => Query.fail (.notIterable value.qualifiedKind)

/-- Whether some action recognizes a line. -/
def isRecognized (host : Host Memory) (line : Line) : List Action → Query Memory Bool
  | [] => return false
  | action :: others => do
    if action.accepts line.toValue then
      match ← action.matched host line with
      | some _ => return true
      | none => isRecognized host line others
    else isRecognized host line others

/-- The diagnostics of the text lines that no action recognizes. -/
def diagnostics (host : Host Memory) (actions : List Action) :
    List (Nat × Line) → Query Memory (List String)
  | [] => return []
  | (_, .sentinel _) :: others => diagnostics host actions others
  | (number, .text content) :: others => do
    if ← isRecognized host (.text content) actions then diagnostics host actions others
    else
      Query.note (.unrecognized number (.text content))
      let found ← diagnostics host actions others
      return ("Unrecognized Line: #" ++ toString number ++ ": " ++ content) :: found

/-- Fail unless every text line is recognized. -/
def preflight (host : Host Memory) (actions : List Action) (lines : List (Nat × Line)) :
    Query Memory Unit := do
  let found ← diagnostics host actions lines
  if !found.isEmpty then Query.fail (.script (.unrecognizedLines found))

/-- The result of executing a line, which the state holds meanwhile. -/
def attemptLine (host : Host Memory) (actions : List Action) (line : Line) :
    Procedure Memory (Except Failure LineOutcome) := do
  match line with
  | .text content =>
    Procedure.modifyState fun state => state.put State.lineName (.text content)
  | .sentinel _ => pure ()
  let result ← Procedure.attempt (executeLine host actions line)
  Procedure.modifyState fun state => state.erase State.lineName
  return result

/-- Execute FINISH after a fault. A fault of the cleanup itself is only noted. -/
def cleanUp (host : Host Memory) (actions : List Action) : Procedure Memory Unit := do
  match ← Procedure.attempt (executeLine host actions finishLine) with
  | .error (.fault _) => Procedure.note .finishFailed
  | .error failure => throw failure
  | .ok _ => return ()

/-- The lines to execute after a line with some outcome. -/
def queueAfter (outcome : LineOutcome) (queue : List Line) (finishStarted : Bool) : List Line :=
  match outcome with
  | .proceed => queue
  | .stopLine => queue
  | .rewrite lines => lines ++ queue
  | .stopScript => if finishStarted then [] else [finishLine]

/-- Execute the lines of a queue. -/
def executeQueue (host : Host Memory) (actions : List Action) :
    (fuel : Nat) → (queue : List Line) → (finishStarted : Bool) → Procedure Memory Unit
  | _, [], _ => return ()
  | 0, _ :: _, _ => throw .outOfFuel
  | fuel + 1, line :: queue, finishStarted => do
    let finishStarted := finishStarted || line == finishLine
    match ← attemptLine host actions line with
    | .ok outcome =>
      executeQueue host actions fuel (queueAfter outcome queue finishStarted) finishStarted
    | .error (.fault fault) =>
      if !finishStarted then cleanUp host actions
      throw (.fault fault)
    | .error failure => throw failure

/-- What a script is run with, once its lines are known to be recognized: the actions, and the
lines before FINISH. -/
def approve (host : Host Memory) (fuel : Nat) (source : Value) :
    Query Memory (List Action × List Line) := do
  let lines := Script.beforeFinish (← scriptLines host fuel source)
  let actions ← Engine.prepare host fuel
  preflight host actions lines
  return (actions, lines.map Prod.snd)

/-- Run a script on the state of the session. -/
def script (host : Host Memory) (fuel : Nat) (source : Value) : Procedure Memory Unit := do
  let (actions, lines) ← approve host fuel source
  Procedure.modifyState fun state => state.put State.engineName .engine
  let result ← Procedure.attempt do
    Procedure.note (.executingAgainst actions.length)
    executeQueue host actions fuel (lines ++ [finishLine]) false
  Procedure.modifyState State.withoutTransient
  Procedure.ofResult result

end LineScript.Run
