import LineScript.Library.Build
import LineScript.Run.Script

/-!
# Calling declared functions

The host of declared libraries calls their functions. A handler may run a script on the engine
that calls it, so a host is made for a number of levels of such runs; on the last level they are
cut off.

A function that is called in a role that is not its own fails as a function with other parameters
does: a handler finds no state in what it is given, and the others are given too much.
-/

namespace LineScript.Library

/-- Fail as thrown. -/
def Thrown.fail {α : Type} (thrown : Thrown) : Query Memory α :=
  throw thrown.failure

/-- A declared function with too many arguments. -/
def tooManyArguments (name : String) (count : Nat) : Fault :=
  .thrown "TypeError" (name ++ "() takes 1 positional argument but " ++ toString count ++
    " were given")

/-- What follows a start of a text, if it starts so. -/
def after? (start text : List Char) : Option (List Char) :=
  match start, text with
  | [], rest => some rest
  | c :: start, d :: rest => if c = d then after? start rest else none
  | _ :: _, [] => none

/-- The pieces of a text between single spaces. -/
def spacedPieces : List Char → List (List Char)
  | [] => [[]]
  | ' ' :: rest => [] :: spacedPieces rest
  | c :: rest =>
    match spacedPieces rest with
    | [] => [[c]]
    | word :: others => (c :: word) :: others

/-- The result of a declared matcher. -/
def MatchRule.apply (rule : MatchRule) (line : Value) : Query Memory Value :=
  let chars :=
    match line with
    | .text content => content.toList
    | _ => []
  match rule with
  | .wholeLine => return .list [line]
  | .constant result => result.make
  | .failing thrown => thrown.fail
  | .startingWith start =>
    return (match after? start.toList chars with
      | some rest => .list [.text (String.ofList rest)]
      | none => .null)
  | .words => return .list ((spacedPieces chars).map fun word => .text (String.ofList word))
  | .equalTo other => return if line.sameKey other then .list [] else .null

/-- Call a declared matcher. -/
def callMatching (name : String) (rule : MatchRule) (line : Value) : Query Memory Value := do
  Memory.record (.matched name line)
  rule.apply line

/-- Enter a declared generator. -/
def enter (name : String) (failing : Option Thrown) (byEngine : Bool) : Query Memory Unit := do
  Memory.record (.generated name byEngine)
  match failing with
  | some thrown => thrown.fail
  | none => return ()

/-- The registration that a generator returns. -/
def generate (name : String) (items : List Recipe) (failing : Option Thrown) (byEngine : Bool) :
    Query Memory Value := do
  enter name failing byEngine
  match items with
  | [result] => result.make
  | _ => return .null

/-- Call a declared generator. -/
def callGenerating (name : String) (items : List Recipe) (giving : Giving)
    (failing : Option Thrown) (byEngine : Bool) : Query Memory Value :=
  match giving with
  | .returned => generate name items failing byEngine
  | .awaited => return .pending (← Memory.addPromise (.generating name items failing byEngine))
  | .yielded => Memory.addStream (.entering name items failing byEngine false) false
  | .yieldedAsync => Memory.addStream (.entering name items failing byEngine true) true

/-- The function that a reference stands for. -/
def functionOf (reference : Callable) : Query Memory Function := do
  return (← Memory.read).functions[reference.id]?.getD
    (.matching reference.name (.constant (.plain .null)) false)

/-- Call a function to match a line. -/
def callMatcher (reference : Callable) (line : Value) : Query Memory Answer := do
  match ← functionOf reference with
  | .matching name rule false => return .ofValue (← callMatching name rule line)
  | .matching name rule true => return .pending (← Memory.addPromise (.matching name rule line))
  | .handling .. => Query.fail (.noAttribute line.qualifiedKind "get")
  | .generating name items giving failing =>
    return .ofValue (← callGenerating name items giving failing false)

/-- Call a function for its registrations. -/
def callGenerator (reference : Callable) : Query Memory Value := do
  match ← functionOf reference with
  | .matching name rule false => callMatching name rule .engine
  | .matching name rule true => return .pending (← Memory.addPromise (.matching name rule .engine))
  | .handling .. => Query.fail (.noAttribute Value.engine.qualifiedKind "get")
  | .generating name items giving failing => callGenerating name items giving failing true

/-- Wait for a pending result, which is given away once. -/
def await (id : Nat) : Query Memory Value := do
  let promise := (← Memory.read).promises[id]?.getD .spent
  Memory.change fun memory =>
    { memory with promises := memory.promises.setIfInBounds id .spent }
  match promise with
  | .known value => return value
  | .matching name rule line => callMatching name rule line
  | .generating name items failing byEngine => generate name items failing byEngine
  | .spent => Query.fail .alreadyAwaited

/-- The failure that leaves a generator, which turns the end of an asynchronous stream into a
fault of its own. -/
def leaving (asynchronous : Bool) : Failure → Failure
  | .fault (.thrown "StopAsyncIteration" message) =>
    if asynchronous then
      .fault (.thrown "RuntimeError" "async generator raised StopAsyncIteration")
    else .fault (.thrown "StopAsyncIteration" message)
  | failure => failure

/-- Draw the next item that a generator makes. A generator that fails is at its end. -/
def makeNext (id : Nat) : List Recipe → Query Memory (Option Value)
  | [] => return none
  | item :: rest => do
    Memory.setStream id (.making [])
    let value ← item.make
    Memory.setStream id (.making rest)
    return some value

/-- Draw the next item of a stream. -/
def next (id : Nat) : Query Memory (Option Value) := do
  match (← Memory.read).streams[id]?.getD (.known []) with
  | .known [] => return none
  | .known (item :: rest) =>
    Memory.setStream id (.known rest)
    return some item
  | .entering name items failing byEngine asynchronous =>
    Memory.setStream id (.making [])
    tryCatch (enter name failing byEngine) fun failure => throw (leaving asynchronous failure)
    makeNext id items
  | .making items => makeNext id items

/-- The value of an expression. -/
def Expr.value (arguments : List Value) : Expr → Procedure Memory Value
  | .recipe source => source.make
  | .argument index =>
    let position := if index < 0 then index + arguments.length else index
    match if position < 0 then none else arguments[position.toNat]? with
    | some taken => return taken
    | none => throw (.fault .missingArgument)
  | .arguments => return .list arguments
  | .entry name => return ((← Procedure.state).get? name).getD .null
  | .joined parts => return .text ("".intercalate (← shownParts parts))
where
  /-- The texts of the values of some expressions. -/
  shownParts : List Expr → Procedure Memory (List String)
    | [] => return []
    | part :: rest => return (← part.value arguments).shown :: (← shownParts rest)

/-- A value that is one more. -/
def incremented : Value → Except Fault Value
  | .float x => .ok (.float x.plusOne)
  | .text _ => .error (.thrown "TypeError" "can only concatenate str (not \"int\") to str")
  | .list _ => .error (.thrown "TypeError" "can only concatenate list (not \"int\") to list")
  | .tuple _ => .error (.thrown "TypeError" "can only concatenate tuple (not \"int\") to tuple")
  | value =>
    match value.wholeNumber? with
    | some i => .ok (.int (i + 1))
    | none => .error (.thrown "TypeError" ("unsupported operand type(s) for +: '" ++
        value.qualifiedKind ++ "' and 'int'"))

/-- The list in an entry of a state with another item at its end. -/
def appended (held : Option Value) (item : Value) : Except Fault Value :=
  match held with
  | none => .ok (.list [item])
  | some (.list items) => .ok (.list (items ++ [item]))
  | some value => .error (.noAttribute value.qualifiedKind "append")

/-- Run a script on a state of its own. The state of the session is there again afterwards. -/
def runApart (run : Procedure Memory Unit) (state : State) : Procedure Memory Unit := do
  let outer ← Procedure.state
  Procedure.modifyState fun _ => state
  let result ← Procedure.attempt run
  Procedure.modifyState fun _ => outer
  Procedure.ofResult result

/-- Carry out an effect of a declared handler, where `run` runs a script on the state at hand. -/
def Effect.perform (run : Value → Procedure Memory Unit) (arguments : List Value) :
    Effect → Procedure Memory Unit
  | .set name value => do
    let value ← value.value arguments
    Procedure.modifyState fun state => state.put name value
  | .append name value => do
    let value ← value.value arguments
    match appended ((← Procedure.state).get? name) value with
    | .ok held => Procedure.modifyState fun state => state.put name held
    | .error fault => throw (.fault fault)
  | .increment name => do
    match incremented (((← Procedure.state).get? name).getD (.int 0)) with
    | .ok held => Procedure.modifyState fun state => state.put name held
    | .error fault => throw (.fault fault)
  | .erase name => Procedure.modifyState fun state => state.erase name
  | .print value => do
    let value ← value.value arguments
    Query.lift (Memory.write value.shown)
  | .dereference name value => do
    let value ← value.value arguments
    Bundled.Variables.assign name value
  | .fail thrown => throw thrown.failure
  | .failIf name thrown => do
    if (((← Procedure.state).get? name).getD .null).truthy then throw thrown.failure
  | .register registration => do
    let value ← registration.make
    Query.lift (Query.modifyEngine fun engine => engine.register value)
  | .run script => do
    let script ← script.make
    run script
  | .runOn script state => do
    let script ← script.make
    match ← state.make with
    | .null => runApart (run script) []
    | .dict entries =>
      match Value.names? entries with
      | some state => runApart (run script) state
      | none => throw (.fault .nameIsNoText)
    | value => throw (.fault (.notAState value.quoted))

/-- Call a declared handler. -/
def callHandling (run : Value → Procedure Memory Unit) (name : String) (effects : List Effect)
    (result : Expr) (arguments : List Value) : Procedure Memory Value := do
  let state ← Procedure.state
  let byEngine :=
    match state.get? State.engineName with
    | some .engine => true
    | _ => false
  let line := (state.get? State.lineName).getD .null
  Query.lift (Memory.record (.handled name arguments line byEngine))
  effects.forM fun effect => effect.perform run arguments
  result.value arguments

/-- Call a function to handle a line. -/
def callHandler (run : Value → Procedure Memory Unit) (reference : Callable)
    (arguments : List Value) : Procedure Memory Answer := do
  match ← functionOf reference with
  | .handling name effects result false =>
    return .ofValue (← callHandling run name effects result arguments)
  | .handling name effects result true =>
    return .ready (← callHandling run name effects result arguments)
  | .matching name .. => throw (.fault (tooManyArguments name (arguments.length + 1)))
  | .generating name .. => throw (.fault (tooManyArguments name (arguments.length + 1)))

/-- The host whose handlers run scripts in a given way. -/
def hostWith (run : Value → Procedure Memory Unit) : Host Memory where
  callMatcher := callMatcher
  callHandler := callHandler run
  callGenerator := callGenerator
  await := await
  next := next
  sleep seconds := Memory.record (.slept seconds)
  print := Memory.write
  readKey := Memory.readKey

/-- The host of declared libraries for a number of levels of runs inside runs. -/
def host (fuel : Nat) : (levels : Nat) → Host Memory
  | 0 => hostWith fun _ => throw .outOfFuel
  | levels + 1 => hostWith fun script => Run.script (host fuel levels) fuel script

end LineScript.Library
