import LineScript.Text.Blank
import LineScript.Text.Breaks
import LineScript.Text.LetterCase
import LineScript.Value.Shown

/-!
# Lines of a script

A script is a text, cut at its line breaks, or a row of items. Its lines are numbered from one,
empty lines included, and empty lines are dropped. The word FINISH, in any case and between any
white space, is the control value that ends the script; the word DONE, as it stands, is the one
that ends a line. The lines before the first FINISH are those that are executed.
-/

namespace LineScript

namespace Line

/-- The line that a text stands for. -/
def ofText (content : String) : Line :=
  if Text.isWordInCapitals "FINISH" (Text.trimBlank content.toList) then .sentinel .finish
  else if content = "DONE" then .sentinel .done
  else .text content

/-- The line that an item of a script stands for; an item that is no text is shown. -/
def ofValue : Value → Line
  | .sentinel mark => .sentinel mark
  | .text content => ofText content
  | value => ofText value.shown

/-- A line in a diagnostic. -/
def shown : Line → String
  | .text content => content
  | .sentinel mark => mark.shown

end Line

namespace Script

/-- The lines that items stand for, numbered from `number` on, without the empty texts. -/
def numberFrom (number : Nat) : List Value → List (Nat × Line)
  | [] => []
  | .text "" :: rest => numberFrom (number + 1) rest
  | item :: rest => (number, Line.ofValue item) :: numberFrom (number + 1) rest

/-- The numbered lines of a row of items. -/
def ofItems (items : List Value) : List (Nat × Line) :=
  numberFrom 1 items

/-- The numbered lines of a text. -/
def ofText (content : String) : List (Nat × Line) :=
  ofItems ((Text.segments content.toList).map fun segment => .text (String.ofList segment))

/-- The lines before the first FINISH. -/
def beforeFinish (lines : List (Nat × Line)) : List (Nat × Line) :=
  lines.takeWhile fun line => line.2 ≠ .sentinel .finish

end Script

end LineScript
