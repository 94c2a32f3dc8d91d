import LineScript.Text.Printable

/-!
# Quoted text

Inside a message, text stands between quotes, so that its ends and its unusual characters can be
seen. Single quotes are used unless the text holds a single quote and no double quote. The
backslash and the chosen quote are escaped, line breaks and tabs have a letter each, and every
character that is not printable is written by its code in two, four or eight hexadecimal digits.
-/

namespace LineScript.Text

/-- A hexadecimal digit in small letters. -/
def hexDigit (value : Nat) : Char :=
  if value < 10 then Char.ofNat (48 + value) else Char.ofNat (87 + value)

/-- The last `width` hexadecimal digits of a number, most significant first. -/
def hexDigits : (width : Nat) → (value : Nat) → List Char
  | 0, _ => []
  | width + 1, value => hexDigits width (value / 16) ++ [hexDigit (value % 16)]

namespace Quoted

/-- The quote that surrounds a text. -/
def mark (chars : List Char) : Char :=
  if chars.contains '\'' && !chars.contains '"' then '"' else '\''

/-- The code of a character behind a backslash. -/
def byCode (c : Char) : List Char :=
  let code := c.toNat
  if code < 0x100 then '\\' :: 'x' :: hexDigits 2 code
  else if code < 0x10000 then '\\' :: 'u' :: hexDigits 4 code
  else '\\' :: 'U' :: hexDigits 8 code

/-- A character as it stands between two `quote` marks. -/
def escape (quote c : Char) : List Char :=
  if c == quote || c == '\\' then ['\\', c]
  else if c == '\n' then ['\\', 'n']
  else if c == '\r' then ['\\', 'r']
  else if c == '\t' then ['\\', 't']
  else if isPrintable c then [c]
  else byCode c

end Quoted

/-- A text between quotes. -/
def quoted (text : String) : String :=
  let chars := text.toList
  let quote := Quoted.mark chars
  String.ofList (quote :: chars.flatMap (Quoted.escape quote) ++ [quote])

end LineScript.Text
