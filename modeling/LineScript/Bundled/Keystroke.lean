import LineScript.Action.Basic
import LineScript.Pattern.Parser

/-!
# Keystrokes

A line `WAIT FOR KEYSTROKE prompt` waits for a key. Escape ends the script; any other key, or the
end of the input, lets it go on.
-/

namespace LineScript.Bundled.Keystroke

/-- A line that waits for a key. -/
def waiting : Pattern where
  source := "^WAIT FOR KEYSTROKE\\s*(.*)$"
  flags := {}
  root :=
    .seq (.anchor .textStart)
      ("WAIT FOR KEYSTROKE".toList.foldr (fun c rest => .seq (.one (.exactly c)) rest)
        (.seq (.repeated 0 none true (.one (.oneOf false false [.category false .blank])))
          (.seq (.group 1 (.repeated 0 none true (.one .anyButBreak))) (.anchor .finalEnd))))
  groups := 1

/-- The pattern is what its source stands for. -/
theorem ofSource?_waiting : Pattern.ofSource? waiting.flags waiting.source = some waiting := by
  decide +kernel

/-- The key that ends a script. -/
def escapeKey : Char := '\x1b'

/-- What is written before waiting. -/
def promptText (prompt : String) : String :=
  let prompt := Text.trim prompt
  if prompt.isEmpty then "Press any key..." else "Press any key... " ++ prompt

/-- Write the prompt and wait for a key. -/
def wait {Memory : Type} (host : Host Memory) (prompt : String) : Query Memory Value := do
  host.print (promptText prompt)
  match ← host.readKey with
  | some key =>
    if key = escapeKey then
      Query.note .escapePressed
      return .sentinel .finish
    else return .null
  | none => return .null

/-- The action for lines that wait for a key. -/
def action : Action :=
  .ofPattern waiting (.bundled .waitForKeystroke)

end LineScript.Bundled.Keystroke
