import LineScript.Library.Memory

/-!
# Following recipes

A recipe is followed from left to right. Making an action may fail; an option is read from the
engine when the recipe is followed.
-/

namespace LineScript.Library

/-- The value of an option of the engine. -/
def optionOf (options : Options) (name : String) : Option Value :=
  Value.attribute? (.options options) name

mutual

/-- Make the value that a recipe describes. -/
def Recipe.make : Recipe → Query Memory Value
  | .plain value => return value
  | .list items => return .list (← makeItems items)
  | .tuple items => return .tuple (← makeItems items)
  | .dict entries => return Value.ofEntries (Entries.ofPairs (← makeEntries entries))
  | .map pairs => return .dict (Value.keyed (← makePairs pairs))
  | .object fields => return .object (Entries.ofPairs (← makeEntries fields))
  | .function body => Memory.addFunction body
  | .pending result => do
    let value ← result.make
    return .pending (← Memory.addPromise (.known value))
  | .stream items asynchronous => do
    Memory.addStream (.known (← makeItems items)) asynchronous
  | .action matcher handler options settings => do
    let matcher ← matcher.make
    let handler ← handler.make
    let options ← options.make
    let settings ← makeEntries settings
    return .action (← Query.ofExcept (Action.make matcher handler options settings))
  | .bundled => return .list (Bundled.actions.map .action)
  | .comments => return .list (Bundled.Comments.actions.map .action)
  | .option name fallback => do
    match optionOf (← Query.engine).options name with
    | some value => return value
    | none => fallback.make
  | .options settings => do
    return .options (← Query.ofExcept (Options.ofSettings (← makeEntries settings)))
  | .actionOptions deref => return .actionOptions (← deref.make)

/-- Make the values of some recipes. -/
def makeItems : List Recipe → Query Memory (List Value)
  | [] => return []
  | item :: rest => return (← item.make) :: (← makeItems rest)

/-- Make the values of some named recipes. -/
def makeEntries : List (String × Recipe) → Query Memory (Entries Value)
  | [] => return []
  | (name, item) :: rest => return (name, ← item.make) :: (← makeEntries rest)

/-- Make the keys and the values of a mapping. -/
def makePairs : List (Recipe × Recipe) → Query Memory (List (Value × Value))
  | [] => return []
  | (key, item) :: rest => do
    let key ← key.make
    let item ← item.make
    return (key, item) :: (← makePairs rest)

end

end LineScript.Library
