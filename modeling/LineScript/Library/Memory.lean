import LineScript.Library.Recipe
import LineScript.Session.Console
import LineScript.Vocabulary.Engine

/-!
# The memory of declared libraries

The host of declared libraries holds the functions, pending results and streams that recipes have
made, the console, and a record of what has happened: the calls of declared functions, the pauses,
and what has been written.
-/

namespace LineScript.Library

/-- What has happened: a call of a declared function, a pause, or a text written. -/
inductive Happening where
  | matched (name : String) (line : Value)
  | handled (name : String) (arguments : List Value) (line : Value) (byEngine : Bool)
  | generated (name : String) (byEngine : Bool)
  | slept (seconds : Number.Binary64)
  | wrote (content : String)
deriving Repr

/-- A pending result: known, to be computed by a function, or given away already. -/
inductive Promise where
  | known (value : Value)
  | matching (name : String) (rule : MatchRule) (line : Value)
  | generating (name : String) (items : List Recipe) (failing : Option Thrown) (byEngine : Bool)
  | spent

/-- A stream: items that exist, or items that a generator makes as they are drawn. The first draw
enters the generator. -/
inductive Stream where
  | known (items : List Value)
  | entering (name : String) (items : List Recipe) (failing : Option Thrown) (byEngine : Bool)
      (asynchronous : Bool)
  | making (items : List Recipe)

/-- What the host of declared libraries holds; what happened last stands first. -/
structure Memory where
  functions : Array Function := #[]
  promises : Array Promise := #[]
  streams : Array Stream := #[]
  happenings : List Happening := []
  console : Console := { input := [] }

namespace Memory

/-- The texts that have been written, the first one first. -/
def written (memory : Memory) : List String :=
  memory.happenings.reverse.filterMap fun happening =>
    match happening with
    | .wrote content => some content
    | _ => none

/-- Change the memory. -/
def change (update : Memory → Memory) : Query Memory Unit :=
  modifyThe (World Memory) fun world => { world with memory := update world.memory }

/-- The memory as it is. -/
def read : Query Memory Memory := do
  let world ← getThe (World Memory)
  return world.memory

/-- Record something that happens. -/
def record (happening : Happening) : Query Memory Unit :=
  change fun memory => { memory with happenings := happening :: memory.happenings }

/-- Hold a function. -/
def addFunction (function : Function) : Query Memory Value := do
  let id := (← read).functions.size
  change fun memory => { memory with functions := memory.functions.push function }
  return .callable ⟨id, function.name⟩

/-- Hold a pending result. -/
def addPromise (promise : Promise) : Query Memory Nat := do
  let id := (← read).promises.size
  change fun memory => { memory with promises := memory.promises.push promise }
  return id

/-- Hold a stream. -/
def addStream (stream : Stream) (asynchronous : Bool) : Query Memory Value := do
  let id := (← read).streams.size
  change fun memory => { memory with streams := memory.streams.push stream }
  return .stream id asynchronous

/-- Change a stream. -/
def setStream (id : Nat) (stream : Stream) : Query Memory Unit :=
  change fun memory => { memory with streams := memory.streams.setIfInBounds id stream }

/-- Write a text. -/
def writeText (content : String) : Query Memory Unit :=
  record (.wrote content)

/-- Write a line. -/
def write (line : String) : Query Memory Unit :=
  writeText (line ++ "\n")

/-- Read a key. -/
def readKey : Query Memory (Option Char) := do
  let (key, console) := (← read).console.readKey
  change fun memory => { memory with console := console }
  Query.ofExcept key

end Memory

end LineScript.Library
