import LineScript.Session.Options
import LineScript.Vocabulary.Registration

/-!
# The vocabulary of an engine

An engine starts with the actions for comments, unless its options turn them off. Registrations
are only collected; they are turned into actions when a script is run, each of them once. One that
fails is tried again by the next run, and those before it stay resolved.
-/

namespace LineScript.Engine

/-- A new engine. -/
def ofOptions (options : Options) : Engine where
  options := options
  registrations := if options.common.truthy then Bundled.Comments.actions.map .action else []

/-- A new engine with the options that a value stands for and settings laid over them. -/
def create (process : Environment) (options : Value) (settings : Entries Value) :
    Except Fault Engine := do
  Action.refuseRepeated "Ottomaton.__init__" ["self", "options"] settings
  let (options, _) ← Options.coerce process options settings
  return ofOptions options

/-- The engine with another registration. The items of a list are registered one by one. -/
def register (engine : Engine) (registration : Value) : Engine :=
  { engine with
    registrations := engine.registrations ++ (registration.items?.getD [registration]) }

/-- The engine with an action that is made now, from settings given by name. -/
def registerAction (engine : Engine) (matcher handler : Value) (settings : Entries Value) :
    Except Fault Engine := do
  Action.refuseRepeated "Ottomaton.register" ["self", "matcher", "handler"] settings
  let options := if settings.isEmpty then .null else Value.ofEntries settings
  let action ← Action.make matcher handler options []
  return { engine with registrations := engine.registrations ++ [.action action] }

variable {Memory : Type}

/-- Turn the registrations that have not been dealt with into actions, and answer all actions. -/
def prepare (host : Host Memory) : (fuel : Nat) → Query Memory (List Action)
  | 0 => throw .outOfFuel
  | fuel + 1 => do
    let engine ← Query.engine
    match engine.registrations[engine.resolved]? with
    | none => return engine.actions
    | some registration =>
      let actions ← Registration.resolve host fuel registration
      Query.modifyEngine fun engine =>
        { engine with actions := engine.actions ++ actions, resolved := engine.resolved + 1 }
      Query.note (.prepared (← Query.engine).actions.length)
      prepare host fuel

end LineScript.Engine
