import LineScript.Number.Binary64
import LineScript.Pattern.Basic

/-!
# Values

Scripts, states, registrations and the results of handlers are made of dynamic values. Besides
plain data there are the two control values, patterns, actions, the options of an engine, and
references to what the host of the engine holds: functions, results that have to be waited for,
and streams that yield their items one by one.
-/

namespace LineScript

/-- Control values, never equal to text: `done` ends a line and `finish` ends a script. -/
inductive Sentinel where
  | done
  | finish
deriving DecidableEq, Repr

/-- A line of a script. -/
inductive Line where
  | text (content : String)
  | sentinel (mark : Sentinel)
deriving DecidableEq, Repr

/-- A function that the host holds under a number. -/
structure Callable where
  id : Nat
  name : String
deriving DecidableEq, Repr

/-- The handlers that come with the engine. -/
inductive Bundled where
  | assign
  | sleep
  | waitForKeystroke
deriving DecidableEq, Repr

/-- What an action does with a line: call a function, or replace the line by a literal one or by
several. -/
inductive Handler where
  | call (function : Callable)
  | bundled (function : Bundled)
  | line (line : Line)
  | lines (lines : List Line)
deriving DecidableEq, Repr

/-- A test of a line that may take arguments from it. -/
inductive Matcher where
  | pattern (pattern : Pattern)
  | sentinel (mark : Sentinel)
  | call (function : Callable)
  | firstOf (matchers : List Matcher)
deriving Repr

/-- A matcher with its handler. The matcher is kept with the value that it was given as, `deref`
says whether arguments that name state entries are replaced by them. -/
structure ActionOf (Value : Type) where
  spec : Value
  matcher : Matcher
  handler : Handler
  deref : Value
deriving Repr

/-- The options of an engine: whether comments are skipped, and settings for libraries. -/
structure OptionsOf (Value : Type) where
  common : Value
  extras : List (String × Value)
deriving Repr

/-- A dynamic value. -/
inductive Value where
  | null
  | bool (b : Bool)
  | int (i : Int)
  | float (x : Number.Binary64)
  | text (content : String)
  | list (items : List Value)
  | tuple (items : List Value)
  | dict (entries : List (Value × Value))
  | sentinel (mark : Sentinel)
  | pattern (pattern : Pattern)
  | callable (function : Callable)
  | pending (id : Nat)
  | stream (id : Nat) (asynchronous : Bool)
  | object (fields : List (String × Value))
  | action (action : ActionOf Value)
  | actionOptions (deref : Value)
  | options (options : OptionsOf Value)
  | engine
deriving Repr

/-- An action over dynamic values. -/
abbrev Action := ActionOf Value

/-- Engine options over dynamic values. -/
abbrev Options := OptionsOf Value

instance : Inhabited Value := ⟨.null⟩

/-- A line as a value. -/
def Line.toValue : Line → Value
  | .text content => .text content
  | .sentinel mark => .sentinel mark

namespace Value

/-- Whether a value counts as true: zero, nothing and whatever is empty do not. -/
def truthy : Value → Bool
  | .null => false
  | .bool b => b
  | .int i => i != 0
  | .float x => !x.isZero
  | .text content => !content.isEmpty
  | .list items => !items.isEmpty
  | .tuple items => !items.isEmpty
  | .dict entries => !entries.isEmpty
  | _ => true

/-- The items of a list or a tuple. -/
def items? : Value → Option (List Value)
  | .list items => some items
  | .tuple items => some items
  | _ => none

/-- The control value or text that a value is. -/
def toLine? : Value → Option Line
  | .text content => some (.text content)
  | .sentinel mark => some (.sentinel mark)
  | _ => none

end Value

end LineScript
