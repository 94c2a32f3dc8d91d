import LineScript.Action.Basic
import LineScript.Pattern.Parser

/-!
# Variables

A line `NAME = value` keeps a value under a name: a literal between double quotes, the value of
another name, or plain text. The name ends at the last place where ` = ` stands.
-/

namespace LineScript.Bundled.Variables

/-- As many characters as possible. -/
def anything : Pattern.Node :=
  .repeated 0 none true (.one .anyButBreak)

/-- An assignment. -/
def assignment : Pattern where
  source := "^(.*) = (.*)$"
  flags := {}
  root :=
    .seq (.anchor .textStart) (.seq (.group 1 anything)
      (.seq (.one (.exactly ' ')) (.seq (.one (.exactly '=')) (.seq (.one (.exactly ' '))
        (.seq (.group 2 anything) (.anchor .finalEnd))))))
  groups := 2

/-- The pattern is what its source stands for. -/
theorem ofSource?_assignment :
    Pattern.ofSource? assignment.flags assignment.source = some assignment := by
  decide +kernel

/-- Keep under a name what a value stands for. -/
def assign {Memory : Type} (name : String) (value : Value) : Procedure Memory Unit := do
  match (← Procedure.state).dereference value with
  | .ok kept => Procedure.modifyState fun state => state.put name kept
  | .error fault => throw (.fault fault)

/-- The action for assignments. -/
def action : Action :=
  .ofPattern assignment (.bundled .assign)

end LineScript.Bundled.Variables
