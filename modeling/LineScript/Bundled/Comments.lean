import LineScript.Action.Basic
import LineScript.Pattern.Parser

/-!
# Comments and blank lines

Lines of white space, and lines that start with `#` or with the word `REM ` in any case, behind
any white space, do nothing. The actions for them end their line.
-/

namespace LineScript.Bundled.Comments

/-- Any amount of white space. -/
def blanks : Pattern.Node :=
  .repeated 0 none true (.one (.oneOf false false [.category false .blank]))

/-- A line of white space only. -/
def blankLine : Pattern where
  source := "^\\s*$"
  flags := {}
  root := .seq (.anchor .textStart) (.seq blanks (.anchor .finalEnd))
  groups := 0

/-- The start of a comment. -/
def comment : Pattern where
  source := "^\\s*(?:#|REM )"
  flags := { ignoreCase := true }
  root :=
    .seq (.anchor .textStart) (.seq blanks
      (.either (.one (.caseless '#'))
        (.seq (.one (.caseless 'R')) (.seq (.one (.caseless 'E'))
          (.seq (.one (.caseless 'M')) (.one (.caseless ' ')))))))
  groups := 0

/-- Each pattern is what its source stands for. -/
theorem ofSource?_source :
    Pattern.ofSource? blankLine.flags blankLine.source = some blankLine ∧
      Pattern.ofSource? comment.flags comment.source = some comment := by
  decide +kernel

/-- The actions for blank lines and comments. -/
def actions : List Action :=
  [.ofPattern blankLine (.line (.sentinel .done)), .ofPattern comment (.line (.sentinel .done))]

end LineScript.Bundled.Comments
