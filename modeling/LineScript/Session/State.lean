import LineScript.Fault
import LineScript.Value.Entries

/-!
# States and references

A script runs on a state, a map from names to values. While it runs the engine keeps itself under
`ottomaton` and the line at hand under `LINE`; both are *transient* and no part of the result.

An argument is *dereferenced* before a handler gets it: a text between double quotes stands for
the text inside, a name of capitals stands for the entry of the state under that name, and
everything else stands for itself.
-/

namespace LineScript

/-- The state of a script. -/
abbrev State := Entries Value

namespace State

/-- The name under which the engine keeps itself. -/
def engineName : String := "ottomaton"

/-- The name under which the engine keeps the line at hand. -/
def lineName : String := "LINE"

/-- The names that belong to the engine. -/
def transientNames : List String := [engineName, lineName]

/-- The state without the entries of the engine. -/
def withoutTransient (state : State) : State :=
  state.filter fun entry => !transientNames.contains entry.1

/-- The state without the entries of the engine and some others. -/
def visible (state : State) (hidden : List String) : State :=
  state.filter fun entry => !transientNames.contains entry.1 && !hidden.contains entry.1

end State

namespace Reference

/-- Whether a character may start a part of a name. -/
def isCapital (c : Char) : Bool :=
  'A' ≤ c && c ≤ 'Z'

mutual

/-- Whether some characters are parts of a name, each a capital and then capitals and digits, with
an underscore between any two. -/
def isParts : List Char → Bool
  | [] => false
  | c :: rest => isCapital c && isRest rest

/-- Whether some characters are what may follow the first character of a name. -/
def isRest : List Char → Bool
  | [] => true
  | c :: rest =>
    if c = '_' then isParts rest else (isCapital c || ('0' ≤ c && c ≤ '9')) && isRest rest

end

/-- The characters without a line feed at the end. -/
def withoutFinalBreak (chars : List Char) : List Char :=
  if chars.getLast? = some '\n' then chars.dropLast else chars

/-- Whether a text has the form of a name of a state entry. A line feed at the end is let pass. -/
def isReference (content : String) : Bool :=
  isParts (withoutFinalBreak content.toList)

/-- The text inside double quotes. A line feed behind the closing quote is let pass. -/
def unquote? (content : String) : Option String :=
  let inside? (chars : List Char) : Option String :=
    match chars with
    | '"' :: rest =>
      if rest.getLast? = some '"' then some (String.ofList rest.dropLast) else none
    | _ => none
  let chars := content.toList
  (inside? chars).orElse fun _ => inside? (withoutFinalBreak chars)

end Reference

namespace State

/-- What an argument stands for in a state. -/
def dereference (state : State) : Value → Except Fault Value
  | .text content =>
    match Reference.unquote? content with
    | some inside => .ok (.text inside)
    | none =>
      if Reference.isReference content then
        match state.get? content with
        | some value => .ok value
        | none => .error (.script (.unknownReference content))
      else .ok (.text content)
  | value => .ok value

/-- What some arguments stand for in a state. -/
def dereferenceAll (state : State) (arguments : List Value) : Except Fault (List Value) :=
  arguments.mapM state.dereference

end State

end LineScript
