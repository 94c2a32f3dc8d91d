import LineScript.Bundled.Comments
import LineScript.Bundled.Keystroke
import LineScript.Bundled.Pause
import LineScript.Bundled.Variables

/-!
# Bundled actions

Assignments, pauses and keystrokes come with the engine and can be registered. Their patterns
take exactly the arguments that their handlers need.
-/

namespace LineScript.Bundled

/-- The bundled actions, in the order in which they are registered. -/
def actions : List Action :=
  [Variables.action, Pause.action, Keystroke.action]

/-- Carry out a bundled handler. -/
def perform {Memory : Type} (host : Host Memory) :
    Bundled → List Value → Procedure Memory Value
  | .assign, [.text name, value] => do
    Variables.assign name value
    return .null
  | .sleep, [.text duration, .text unit] => Pause.sleep host duration unit
  | .waitForKeystroke, [.text prompt] => Keystroke.wait host prompt
  | _, _ => throw (.fault .missingArgument)

end LineScript.Bundled
