import LineScript.Number.Written
import LineScript.Text.Quoted
import LineScript.Value.Basic

/-!
# Shown values

A value has two texts. Its *quoted* form is used inside messages and inside other values: text
stands between quotes there. Its *shown* form is used where the value stands alone: text is shown
as it is. Functions and other references to the host have no text of their own and are shown by
their kind.
-/

namespace LineScript

/-- A control value in a message. -/
def Sentinel.shown : Sentinel → String
  | .done => "Sentinel.DONE"
  | .finish => "Sentinel.FINISH"

/-- A truth value in a message. -/
def shownBool (b : Bool) : String :=
  if b then "True" else "False"

/-- A pattern in a message: its source, of which at most 200 characters are shown, and the names
of its flags. -/
def Pattern.shown (pattern : Pattern) : String :=
  let flags := pattern.flags
  let names :=
    (if flags.ignoreCase then ["re.IGNORECASE"] else []) ++
    (if flags.multiline then ["re.MULTILINE"] else []) ++
    (if flags.dotAll then ["re.DOTALL"] else [])
  let source := String.ofList ((Text.quoted pattern.source).toList.take 200)
  let modes := if names.isEmpty then "" else ", " ++ "|".intercalate names
  "re.compile(" ++ source ++ modes ++ ")"

/-- A line in a message. -/
def Line.quoted : Line → String
  | .text content => Text.quoted content
  | .sentinel mark => mark.shown

/-- The name of a bundled handler. -/
def Bundled.name : Bundled → String
  | .assign => "_assign"
  | .sleep => "_sleep"
  | .waitForKeystroke => "_wait_for_keystroke"

/-- The text of any function. -/
def shownFunction : String := "<function>"

/-- A handler in a message. -/
def Handler.quoted : Handler → String
  | .call _ => shownFunction
  | .bundled _ => shownFunction
  | .line content => content.quoted
  | .lines contents => "[" ++ ", ".intercalate (contents.map Line.quoted) ++ "]"

namespace Value

/-- Items between brackets. -/
def between (opening closing : String) (items : List String) : String :=
  opening ++ ", ".intercalate items ++ closing

/-- The items of a tuple between brackets; a single item is followed by a comma. -/
def betweenTuple (items : List String) : String :=
  match items with
  | [item] => "(" ++ item ++ ",)"
  | items => between "(" ")" items

mutual

/-- A value in a message. -/
def quoted : Value → String
  | .null => "None"
  | .bool b => shownBool b
  | .int i => toString i
  | .float x => x.written .plain
  | .text content => Text.quoted content
  | .list items => between "[" "]" (quotedItems items)
  | .tuple items => betweenTuple (quotedItems items)
  | .dict entries => between "\x7b" "\x7d" (quotedEntries entries)
  | .sentinel mark => mark.shown
  | .pattern source => source.shown
  | .callable _ => shownFunction
  | .pending _ => "<coroutine>"
  | .stream _ asynchronous => if asynchronous then "<async_generator>" else "<generator>"
  | .object fields => between "namespace(" ")" (quotedFields fields)
  | .action ⟨spec, _, handler, deref⟩ =>
    "Action(matcher=" ++ quoted spec ++ ", handler=" ++ handler.quoted ++
      ", options=ActionOptions(deref=" ++ quoted deref ++ "))"
  | .actionOptions deref => "ActionOptions(deref=" ++ quoted deref ++ ")"
  | .options ⟨common, extras⟩ =>
    between "OttomatonOptions(" ")" (("common=" ++ quoted common) :: quotedFields extras)
  | .engine => "<engine>"

/-- The items of a list in a message. -/
def quotedItems : List Value → List String
  | [] => []
  | item :: rest => quoted item :: quotedItems rest

/-- The entries of a mapping in a message. -/
def quotedEntries : List (Value × Value) → List String
  | [] => []
  | (key, value) :: rest => (quoted key ++ ": " ++ quoted value) :: quotedEntries rest

/-- Named values in a message. -/
def quotedFields : List (String × Value) → List String
  | [] => []
  | (name, value) :: rest => (name ++ "=" ++ quoted value) :: quotedFields rest

end

/-- A value that stands alone. -/
def shown : Value → String
  | .text content => content
  | .options ⟨common, extras⟩ =>
    " ".intercalate (("common=" ++ quoted common) :: quotedFields extras)
  | value => quoted value

/-- The name of the kind of a value. -/
def kind : Value → String
  | .null => "NoneType"
  | .bool _ => "bool"
  | .int _ => "int"
  | .float _ => "float"
  | .text _ => "str"
  | .list _ => "list"
  | .tuple _ => "tuple"
  | .dict _ => "dict"
  | .sentinel _ => "Sentinel"
  | .pattern _ => "Pattern"
  | .callable _ => "function"
  | .pending _ => "coroutine"
  | .stream _ asynchronous => if asynchronous then "async_generator" else "generator"
  | .object _ => "SimpleNamespace"
  | .action _ => "Action"
  | .actionOptions _ => "ActionOptions"
  | .options _ => "OttomatonOptions"
  | .engine => "Ottomaton"

/-- The name of the kind of a value with the module that a foreign kind comes from. -/
def qualifiedKind : Value → String
  | .pattern _ => "re.Pattern"
  | .object _ => "types.SimpleNamespace"
  | value => value.kind

end Value

end LineScript
