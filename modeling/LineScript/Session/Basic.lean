import LineScript.Session.Notice
import LineScript.Session.State

/-!
# Sessions

The engine works in a *world*: the engine itself, what it has noted, and the memory of its host.
A *query* is a computation in a world. A *session* is a world with the state of the running
script, and a *procedure* is a computation in a session. So a query cannot touch a state, while a
procedure may use any query. What a computation has done remains when it fails.

The *host* is what the engine cannot do by itself: call the functions it has registered, wait for
results, draw items from streams, and deal with the clock and the console.
-/

namespace LineScript

/-- An interpreter for scripts: its options, what has been registered, and the actions that the
first `resolved` registrations stand for. -/
structure Engine where
  options : Options
  registrations : List Value
  actions : List Action := []
  resolved : Nat := 0
deriving Repr

/-- The engine, its notices with the latest first, and the memory of its host. -/
structure World (Memory : Type) where
  engine : Engine
  notices : List Notice
  memory : Memory

/-- A world with the state of the running script. -/
structure Session (Memory : Type) where
  state : State
  world : World Memory

/-- A computation that may touch the world but no state. -/
abbrev Query (Memory : Type) := ExceptT Failure (StateM (World Memory))

/-- A computation that may touch the world and the state. -/
abbrev Procedure (Memory : Type) := ExceptT Failure (StateM (Session Memory))

/-- What a function answers: a result, or a reference to one that is still pending. -/
inductive Answer where
  | ready (result : Value)
  | pending (id : Nat)
deriving Repr

/-- The answer of a function that has returned a value. -/
def Answer.ofValue : Value → Answer
  | .pending id => .pending id
  | value => .ready value

/-- What the engine needs from the program that it is a part of. -/
structure Host (Memory : Type) where
  /-- Call a function to match a line. -/
  callMatcher : Callable → Value → Query Memory Answer
  /-- Call a function to handle a line, with the arguments taken from it. -/
  callHandler : Callable → List Value → Procedure Memory Answer
  /-- Call a function for the registrations it makes. -/
  callGenerator : Callable → Query Memory Value
  /-- Wait for a pending result. -/
  await : Nat → Query Memory Value
  /-- Draw the next item of a stream. -/
  next : Nat → Query Memory (Option Value)
  /-- Let some seconds pass. -/
  sleep : Number.Binary64 → Query Memory Unit
  /-- Write a line to the console. -/
  print : String → Query Memory Unit
  /-- Read a key from the console; there may be none left. -/
  readKey : Query Memory (Option Char)

variable {Memory α : Type}

namespace Query

/-- Fail with a fault. -/
def fail (fault : Fault) : Query Memory α :=
  throw (.fault fault)

/-- The value of a check, or its fault. -/
def ofExcept : Except Fault α → Query Memory α
  | .ok value => pure value
  | .error fault => fail fault

/-- Note something. -/
def note (notice : Notice) : Query Memory Unit :=
  modifyThe (World Memory) fun world =>
    { world with notices := notice :: world.notices }

/-- The engine as it is. -/
def engine : Query Memory Engine := do
  let world ← getThe (World Memory)
  return world.engine

/-- Change the engine. -/
def modifyEngine (change : Engine → Engine) : Query Memory Unit :=
  modifyThe (World Memory) fun world => { world with engine := change world.engine }

/-- A query as a procedure, which leaves the state as it is. -/
def lift (query : Query Memory α) : Procedure Memory α := fun session =>
  let (result, world) := query.run session.world
  (result, { session with world := world })

instance : MonadLift (Query Memory) (Procedure Memory) := ⟨lift⟩

end Query

namespace Procedure

/-- The result of a procedure, as a value whether it fails or not. -/
def attempt (procedure : Procedure Memory α) : Procedure Memory (Except Failure α) :=
  fun session =>
    let (result, session) := procedure.run session
    (.ok result, session)

/-- Go on with the result of a procedure that has ended. -/
def ofResult : Except Failure α → Procedure Memory α
  | .ok value => pure value
  | .error failure => throw failure

/-- Note something. -/
def note (notice : Notice) : Procedure Memory Unit :=
  Query.lift (Query.note notice)

/-- The state as it is. -/
def state : Procedure Memory State := do
  let session ← getThe (Session Memory)
  return session.state

/-- Change the state. -/
def modifyState (change : State → State) : Procedure Memory Unit :=
  modifyThe (Session Memory) fun session => { session with state := change session.state }

end Procedure

end LineScript
