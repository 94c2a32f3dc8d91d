import LineScript.Script.Line

/-!
# Notices

The engine notes what it does. Each notice has a text and belongs to one of three topics.
-/

namespace LineScript

/-- What the engine notes while it works. -/
inductive Notice where
  | prepared (count : Nat)
  | executingAgainst (count : Nat)
  | executing (line : Line)
  | unrecognized (number : Nat) (line : Line)
  | ignored (result : Value)
  | finishFailed
  | invoking (function : Callable)
  | sleeping (seconds : Number.Binary64)
  | escapePressed
deriving Repr

namespace Notice

/-- The topic of a notice. -/
def topic : Notice → String
  | .invoking _ => "ottomaton.registration"
  | .sleeping _ | .escapePressed => "ottomaton.actions"
  | _ => "ottomaton.engine"

/-- The text of a notice. -/
def message : Notice → String
  | .prepared count => "Actions prepared " ++ toString count
  | .executingAgainst count => "Executing lines against " ++ toString count ++ " actions"
  | .executing line =>
    if line = .sentinel .finish then "Executing line FINISH" else "Executing line " ++ line.quoted
  | .unrecognized number line =>
    "Unrecognized line #" ++ toString number ++ ": " ++ line.quoted
  | .ignored result => "Ignoring non-replacement handler result " ++ result.quoted
  | .finishFailed => "An error occurred running FINISH"
  | .invoking function => "Invoking action generator <" ++ function.name ++ ">"
  | .sleeping seconds => "Sleeping " ++ seconds.writtenFixed 3 ++ "s"
  | .escapePressed => "Escape pressed, finishing script"

end Notice

end LineScript
