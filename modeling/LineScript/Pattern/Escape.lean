/-!
# Escaped literals

In the source of a pattern a literal character that could mean something else stands behind a
backslash: the punctuation of patterns, and white space.
-/

namespace LineScript.Pattern

/-- The characters that are escaped in a literal. -/
def specialChars : List Char :=
  "()[]\x7b\x7d?*+-|^$\\.&~# \t\n\r\x0b\x0c".toList

/-- A literal character as it is written in the source of a pattern. -/
def escapeChar (c : Char) : List Char :=
  if specialChars.contains c then ['\\', c] else [c]

/-- A literal text as it is written in the source of a pattern. -/
def escape (chars : List Char) : List Char :=
  chars.flatMap escapeChar

end LineScript.Pattern
