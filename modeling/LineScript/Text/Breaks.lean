/-!
# Line breaks

A text is cut into segments at its line breaks. A carriage return followed by a line feed is one
break; either of them alone is one break too. Nothing else breaks a line.
-/

namespace LineScript.Text

/-- The segments between the line breaks; a text with `n` breaks has `n + 1` of them. -/
def segments : List Char → List (List Char)
  | [] => [[]]
  | '\r' :: '\n' :: rest => [] :: segments rest
  | '\r' :: rest => [] :: segments rest
  | '\n' :: rest => [] :: segments rest
  | c :: rest =>
    match segments rest with
    | [] => [[c]]
    | segment :: others => (c :: segment) :: others

/-- The text with every line break written as a line feed. -/
def unifyBreaks : List Char → List Char
  | [] => []
  | '\r' :: '\n' :: rest => '\n' :: unifyBreaks rest
  | '\r' :: rest => '\n' :: unifyBreaks rest
  | c :: rest => c :: unifyBreaks rest

end LineScript.Text
