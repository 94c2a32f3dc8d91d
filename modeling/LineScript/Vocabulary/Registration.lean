import LineScript.Action.Basic
import LineScript.Bundled.Basic

/-!
# Registrations

What is registered with an engine is turned into actions, in order. An action stands for itself,
a pending result for the registration it turns out to be, a list or a stream for its items, and a
function for the registration it returns when it is called. A *record*, a mapping or an object
with a matcher and a handler, is one action; any other mapping is one action for each key. A
plain stream is drawn from only when the item before has been dealt with, an asynchronous one is
drawn empty first.
-/

namespace LineScript.Registration

/-- The matcher, the handler and the options of a record. -/
def record? : Value → Option (Value × Value × Value)
  | .dict entries => do
    let matcher ← Value.lookup? entries "matcher"
    let handler ← Value.lookup? entries "handler"
    return (matcher, handler, (Value.lookup? entries "options").getD .null)
  | value => do
    let matcher ← value.attribute? "matcher"
    let handler ← value.attribute? "handler"
    return (matcher, handler, (value.attribute? "options").getD .null)

variable {Memory : Type}

/-- The items that a stream still has. -/
def drain (host : Host Memory) (id : Nat) : (fuel : Nat) → Query Memory (List Value)
  | 0 => throw .outOfFuel
  | fuel + 1 => do
    match ← host.next id with
    | none => return []
    | some item => return item :: (← drain host id fuel)

mutual

/-- The actions that a registration stands for. -/
def resolve (host : Host Memory) : (fuel : Nat) → Value → Query Memory (List Action)
  | 0, _ => throw .outOfFuel
  | fuel + 1, registration => do
    match registration with
    | .action action => return [action]
    | .pending id => resolve host fuel (← host.await id)
    | .list items => resolveAll host fuel items
    | .tuple items => resolveAll host fuel items
    | .stream id false => resolveStream host fuel id
    | .stream id true => resolveAll host fuel (← drain host id fuel)
    | registration =>
      match record? registration, registration with
      | some (matcher, handler, options), _ =>
        return [← Query.ofExcept (Action.make matcher handler options [])]
      | none, .dict entries =>
        entries.mapM fun entry => Query.ofExcept (Action.make entry.1 entry.2 .null [])
      | none, .callable function => do
        Query.note (.invoking function)
        resolve host fuel (← host.callGenerator function)
      | none, other => Query.fail (.script (.invalidRegistration other.kind))

/-- The actions that some registrations stand for. -/
def resolveAll (host : Host Memory) : (fuel : Nat) → List Value → Query Memory (List Action)
  | 0, _ => throw .outOfFuel
  | _ + 1, [] => return []
  | fuel + 1, registration :: others => do
    let actions ← resolve host fuel registration
    return actions ++ (← resolveAll host fuel others)

/-- The actions that the items of a stream stand for. -/
def resolveStream (host : Host Memory) : (fuel : Nat) → Nat → Query Memory (List Action)
  | 0, _ => throw .outOfFuel
  | fuel + 1, id => do
    match ← host.next id with
    | none => return []
    | some registration =>
      let actions ← resolve host fuel registration
      return actions ++ (← resolveStream host fuel id)

end

/-- The actions that the items of a value stand for. -/
def resolveEach (host : Host Memory) (fuel : Nat) : Value → Query Memory (List Action)
  | .list items => resolveAll host fuel items
  | .tuple items => resolveAll host fuel items
  | .dict entries => resolveAll host fuel (entries.map Prod.fst)
  | .text content =>
    resolveAll host fuel (content.toList.map fun c => .text (String.singleton c))
  | .stream id false => resolveStream host fuel id
  | value => Query.fail (.notIterable value.qualifiedKind)

end LineScript.Registration
