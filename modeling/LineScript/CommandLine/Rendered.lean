import LineScript.Json.Basic
import LineScript.Session.State

/-!
# The rendered state

The final state is rendered as a document or as plain text. In a document, keys that are no text
are written as text, and values that no document can hold are shown as text. In plain text every
entry has a line of its own.
-/

namespace LineScript

mutual

/-- The document that a value is. -/
def Value.toJson : Value → Except Fault Json
  | .null => .ok .null
  | .bool b => .ok (.bool b)
  | .int i => .ok (.int i)
  | .float x => .ok (.float x)
  | .text content => .ok (.text content)
  | .list items => return .array (← itemsToJson items)
  | .tuple items => return .array (← itemsToJson items)
  | .dict entries => return .object (← entriesToJson entries)
  | value => .ok (.text value.shown)

/-- The documents that some values are. -/
def itemsToJson : List Value → Except Fault (List Json)
  | [] => .ok []
  | item :: rest => return (← item.toJson) :: (← itemsToJson rest)

/-- The members that the entries of a mapping are. -/
def entriesToJson : List (Value × Value) → Except Fault (List (String × Json))
  | [] => .ok []
  | (key, item) :: rest => do
    let name ← keyName key
    return (name, ← item.toJson) :: (← entriesToJson rest)
where
  /-- The name that a key is written as. -/
  keyName : Value → Except Fault String
    | .text content => .ok content
    | .null => .ok (Json.print .null)
    | .bool b => .ok (Json.print (.bool b))
    | .int i => .ok (Json.print (.int i))
    | .float x => .ok (Json.print (.float x))
    | value => .error (.keyIsNoText value.qualifiedKind)

end

namespace CommandLine

/-- The state in a format. -/
def renderState (state : State) (format : String) : Except Fault String :=
  if format = "json" then return (← (Value.ofEntries state).toJson).print
  else return "\n".intercalate (state.map fun entry => entry.1 ++ " = " ++ entry.2.shown)

end CommandLine

end LineScript
