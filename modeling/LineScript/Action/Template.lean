import LineScript.Pattern.Basic
import LineScript.Pattern.Escape

/-!
# Templates

A template is a command written as in a script, with a placeholder wherever an argument may
stand: a double quote, one or more other characters, and a double quote. A template matches a
line that consists of its literal pieces with some text, as long as possible, at each placeholder.
-/

namespace LineScript.Template

/-- A character put in front of the first of some pieces. -/
def prependChar (c : Char) : List (List Char) → List (List Char)
  | [] => [[c]]
  | piece :: others => (c :: piece) :: others

/-- The literal pieces from a point on, where `opened` holds the characters behind a double quote
that may open a placeholder. -/
def scan : (opened : Option (List Char)) → List Char → List (List Char)
  | none, [] => [[]]
  | some inside, [] => ['"' :: inside]
  | none, c :: rest => if c = '"' then scan (some []) rest else prependChar c (scan none rest)
  | some inside, c :: rest =>
    if c = '"' then
      if inside.isEmpty then prependChar '"' (scan (some []) rest) else [] :: scan none rest
    else scan (some (inside ++ [c])) rest

/-- The literal pieces around the placeholders of a template: one more than it has placeholders. -/
def literals (template : List Char) : List (List Char) :=
  scan none template

/-- The tree for one argument: as many characters as possible, one at least. -/
def argument (index : Nat) : Pattern.Node :=
  .group index (.repeated 1 none true (.one .anyButBreak))

/-- The tree for some literal pieces with an argument between any two, the first argument being
number `index`, and then the end of the line. -/
def nodeOf (index : Nat) : List (List Char) → Pattern.Node
  | [] => .anchor .finalEnd
  | [piece] => .seq (.literal piece) (.anchor .finalEnd)
  | piece :: others =>
    .seq (.literal piece) (.seq (argument index) (nodeOf (index + 1) others))

/-- The source of the pattern of a template. -/
def source (template : List Char) : List Char :=
  '^' :: ("(.+)".toList.intercalate ((literals template).map Pattern.escape)) ++ ['$']

/-- The pattern of a template. -/
def pattern (template : String) : Pattern :=
  let pieces := literals template.toList
  { source := String.ofList (source template.toList)
    flags := {}
    root := .seq (.anchor .textStart) (nodeOf 1 pieces)
    groups := pieces.length - 1 }

end LineScript.Template
