import LineScript.Action.Matcher

/-!
# Actions

An action is made from a matcher, a handler and its options, in this order: the first of them
that has no meaning is the fault. Options may be absent, a mapping, or options made before;
settings given by name are laid over them.

A control line is only offered to the actions of that control value, and they are offered nothing
else.
-/

namespace LineScript

/-- The handler that a value stands for: a function, a line, or a row of lines. -/
def Handler.ofValue (value : Value) : Except Fault Handler :=
  match value with
  | .text content => .ok (.line (.text content))
  | .sentinel mark => .ok (.line (.sentinel mark))
  | .callable function => .ok (.call function)
  | value =>
    match value.items?.bind fun items => items.mapM Value.toLine? with
    | some contents => .ok (.lines contents)
    | none => .error (.script (.invalidHandler value.quoted))

namespace Action

/-- The `deref` option in some options; it is on unless it is given. -/
def derefOption : Value → Except Fault Value
  | .null => .ok (.bool true)
  | .actionOptions deref => .ok deref
  | .dict entries =>
    .ok (.bool (((Value.lookup? entries "deref").map Value.truthy).getD true))
  | value => .error (.noAttribute value.qualifiedKind "get")

/-- The options with settings given by name laid over them. -/
def overlay (options : Value) (settings : Entries Value) : Except Fault Value := do
  if settings.isEmpty then return options
  let deref ← derefOption options
  return Value.ofEntries (Entries.putAll [("deref", deref)] settings)

/-- Fail if settings give an argument that is given already. -/
def refuseRepeated (function : String) (taken : List String) (settings : Entries Value) :
    Except Fault Unit :=
  match settings.names.find? taken.contains with
  | some name => .error (.repeatedArgument function name)
  | none => .ok ()

/-- The action made from a matcher, a handler, options and settings given by name. -/
def make (spec handler options : Value) (settings : Entries Value) : Except Fault Action := do
  refuseRepeated "Action.__init__" ["self", "matcher", "handler", "options"] settings
  let options ← overlay options settings
  let matcher ← Matcher.ofValue spec
  let handler ← Handler.ofValue handler
  let deref ← derefOption options
  return ⟨spec, matcher, handler, deref⟩

/-- The control value that an action is for. -/
def sentinel? (action : Action) : Option Sentinel :=
  match action.spec with
  | .sentinel mark => some mark
  | _ => none

/-- Whether a line is offered to an action. -/
def accepts (action : Action) (line : Value) : Bool :=
  match line with
  | .sentinel mark => action.sentinel? == some mark
  | _ => action.sentinel?.isNone

/-- The action with a pattern for a matcher, for the actions that come with the engine. -/
def ofPattern (pattern : Pattern) (handler : Handler) : Action :=
  ⟨.pattern pattern, .pattern pattern, handler, .bool false⟩

end Action

end LineScript
