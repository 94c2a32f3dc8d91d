import LineScript.Json.Basic
import LineScript.Library.Recipe
import LineScript.Pattern.Parser

/-!
# Reading declared libraries

A recipe is written as a document. Plain data is written as itself; an object with a member `$`
is something else, named by that member. A document that breaks the rules has no recipe.

The reader goes at most six steps for each level of a document, so a fuel of that many steps is
never used up.
-/

namespace LineScript.Library.Reader

/-- The member of an object that names what it is. -/
def tag : String := "$"

/-- The text that a document is. -/
def text? : Json → Option String
  | .text content => some content
  | _ => none

/-- The text in a member. -/
def textIn? (json : Json) (name : String) : Option String :=
  (json.get? name).bind text?

/-- The whole number in a member, if there is one. -/
def intIn? (json : Json) (name : String) : Option Int :=
  match json.get? name with
  | some (.int i) => some i
  | _ => none

/-- The items of an array. -/
def items? : Json → Option (List Json)
  | .array items => some items
  | _ => none

/-- The members of an object. -/
def members? : Json → Option (List (String × Json))
  | .object members => some members
  | _ => none

/-- Whether a member is there and true. -/
def isSet (json : Json) (name : String) : Bool :=
  match json.get? name with
  | some (.bool b) => b
  | _ => false

/-- The value that plain data stands for. -/
def plain? : Json → Option Value
  | .null => some .null
  | .bool b => some (.bool b)
  | .int i => some (.int i)
  | .float x => some (.float x)
  | .text content => some (.text content)
  | _ => none

/-- What a function throws. -/
def thrown? (json : Json) : Option Thrown := do
  let kind ← textIn? json "kind"
  let message := (textIn? json "message").getD ""
  match kind with
  | "OttomatonError" =>
    return .fault (.script { kind := .general, message := message, line := intIn? json "line" })
  | "KeyError" => return .fault (.missingKey message)
  | "Abort" => return .abort kind message
  | "CancelledError" => return .abort kind message
  | kind => return .fault (.thrown kind message)

/-- A pattern. -/
def pattern? (json : Json) : Option Pattern := do
  let source ← textIn? json "p"
  let flags := ((textIn? json "f").getD "").toList
  Pattern.ofSource? ⟨flags.contains 'i', flags.contains 'm', flags.contains 's'⟩ source

/-- The way a generator gives its registrations. -/
def giving? (json : Json) : Option Giving :=
  match json.get? "kind" with
  | none => some .returned
  | some (.text "return") => some .returned
  | some (.text "async") => some .awaited
  | some (.text "yield") => some .yielded
  | some (.text "async_yield") => some .yieldedAsync
  | some _ => none

/-- What a generator goes through item by item: an array, the names of an object, or the
characters of a text. -/
def yieldedItems (json : Json) : Except Fault (List Json) :=
  match json with
  | .array items => .ok items
  | .object members => .ok (members.map fun entry => .text entry.1)
  | .text content => .ok (content.toList.map fun c => .text (String.singleton c))
  | .null => .error (.notIterable "NoneType")
  | .bool _ => .error (.notIterable "bool")
  | .int _ => .error (.notIterable "int")
  | .float _ => .error (.notIterable "float")

mutual

/-- A recipe. -/
def recipe? : (fuel : Nat) → Json → Option Recipe
  | 0, _ => none
  | fuel + 1, json =>
    match json with
    | .array items => return .list (← items.mapM (recipe? fuel))
    | .object members =>
      match json.get? tag with
      | none => return .dict (← named? fuel members)
      | some name => (text? name).bind fun name => tagged? fuel name json
    | json => (plain? json).map .plain

/-- Named recipes. -/
def named? : (fuel : Nat) → List (String × Json) → Option (List (String × Recipe))
  | 0, _ => none
  | fuel + 1, members =>
    members.mapM fun entry => (recipe? fuel entry.2).map fun item => (entry.1, item)

/-- The recipe in a member, or one for nothing. -/
def recipeIn? : (fuel : Nat) → Json → String → Option Recipe
  | 0, _, _ => none
  | fuel + 1, json, name =>
    match json.get? name with
    | some item => recipe? fuel item
    | none => some (.plain .null)

/-- What an object with a tag stands for. -/
def tagged? : (fuel : Nat) → String → Json → Option Recipe
  | 0, _, _ => none
  | fuel + 1, name, json =>
    let items? (name : String) : Option (List Recipe) := do
      (← items? (← json.get? name)).mapM (recipe? fuel)
    let namedIn? (name : String) : Option (List (String × Recipe)) :=
      match json.get? name with
      | some (.object members) => named? fuel members
      | some .null => some []
      | none => some []
      | some _ => none
    match name with
    | "DONE" => some (.plain (.sentinel .done))
    | "FINISH" => some (.plain (.sentinel .finish))
    | "re" => (pattern? json).map fun pattern => .plain (.pattern pattern)
    | "tuple" => return .tuple (← items? "items")
    | "fn" => return .function (← function? fuel json)
    | "call" => return .function (← generator? fuel json)
    | "await" => return .pending (← recipeIn? fuel json "of")
    | "iter" => return .stream (← items? "items") false
    | "aiter" => return .stream (← items? "items") true
    | "object" => do
      let members ← members? json
      return .object (← named? fuel (members.filter fun entry => entry.1 ≠ tag))
    | "map" => do
      let pairs ← (← Reader.items? (← json.get? "pairs")).mapM fun pair => do
        match pair with
        | .array [key, item] => return (← recipe? fuel key, ← recipe? fuel item)
        | _ => none
      return .map pairs
    | "action" => do
      let matcher ← recipeIn? fuel json "matcher"
      let handler ← recipeIn? fuel json "handler"
      let options ← recipeIn? fuel json "options"
      return .action matcher handler options (← namedIn? "kwargs")
    | "bundled" => some .bundled
    | "comments" => some .comments
    | "option" => return .option (← textIn? json "key") (← recipeIn? fuel json "default")
    | "options" => return .options (← namedIn? "values")
    | "action_options" => return .actionOptions (← recipeIn? fuel json "deref")
    | _ => none

/-- A matcher or a handler. -/
def function? : (fuel : Nat) → Json → Option Function
  | 0, _ => none
  | fuel + 1, json => do
    let name ← textIn? json "name"
    match json.get? "match" with
    | some rule => return .matching name (← matchRule? fuel (← text? rule) json) (isSet json "async")
    | none =>
      let effects ←
        match json.get? "do" with
        | some effects => (← items? effects).mapM (effect? fuel)
        | none => some []
      let result ← expr? fuel ((json.get? "ret").getD .null)
      return .handling name effects result (isSet json "async")

/-- The rule of a matcher. -/
def matchRule? : (fuel : Nat) → String → Json → Option MatchRule
  | 0, _, _ => none
  | fuel + 1, rule, json =>
    match rule with
    | "line" => some .wholeLine
    | "const" => return .constant (← recipeIn? fuel json "arg")
    | "raise" => return .failing (← thrown? (← json.get? "arg"))
    | "prefix" => return .startingWith (← textIn? json "arg")
    | "words" => some .words
    | "equals" => return .equalTo ((plain? ((json.get? "arg").getD .null)).getD .engine)
    | _ => none

/-- A generator of registrations. -/
def generator? : (fuel : Nat) → Json → Option Function
  | 0, _ => none
  | fuel + 1, json => do
    let name ← textIn? json "name"
    let giving ← giving? json
    let result := (json.get? "of").getD .null
    let failing ←
      match json.get? "raise" with
      | none => some none
      | some .null => some none
      | some thrown => (thrown? thrown).map some
    match giving with
    | .returned => return .generating name [← recipe? fuel result] giving failing
    | .awaited => return .generating name [← recipe? fuel result] giving failing
    | giving =>
      match yieldedItems result with
      | .ok items => return .generating name (← items.mapM (recipe? fuel)) giving failing
      | .error fault => return .generating name [] giving (failing.or (some (.fault fault)))

/-- An expression. -/
def expr? : (fuel : Nat) → Json → Option Expr
  | 0, _ => none
  | fuel + 1, json =>
    match json with
    | .object [("arg", .int index)] => some (.argument index)
    | .object [("args", _)] => some .arguments
    | .object [("state", .text name)] => some (.entry name)
    | .object [("join", .array parts)] => return .joined (← parts.mapM (expr? fuel))
    | json => (recipe? fuel json).map .recipe

/-- An effect of a handler. -/
def effect? : (fuel : Nat) → Json → Option Effect
  | 0, _ => none
  | fuel + 1, json =>
    match json with
    | .array [.text "set", .text name, value] => return .set name (← expr? fuel value)
    | .array [.text "append", .text name, value] => return .append name (← expr? fuel value)
    | .array [.text "inc", .text name] => some (.increment name)
    | .array [.text "del", .text name] => some (.erase name)
    | .array [.text "print", value] => return .print (← expr? fuel value)
    | .array [.text "deref", .text name, value] => return .dereference name (← expr? fuel value)
    | .array [.text "raise", thrown] => return .fail (← thrown? thrown)
    | .array [.text "raise_if_state", .text name, thrown] =>
      return .failIf name (← thrown? thrown)
    | .array [.text "register", registration] => return .register (← recipe? fuel registration)
    | .array [.text "run", script] => return .run (← recipe? fuel script)
    | .array [.text "run", script, state] =>
      return .runOn (← recipe? fuel script) (← recipe? fuel state)
    | _ => none

end

end Reader

/-- The recipe that a document describes. -/
def Recipe.ofJson? (json : Json) : Option Recipe :=
  Reader.recipe? (6 * json.depth + 6) json

end LineScript.Library
