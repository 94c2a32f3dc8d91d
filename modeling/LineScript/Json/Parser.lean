import LineScript.Json.Basic

/-!
# Reading documents

A document is read from its first character to its last. Every step of the reader takes at least
one character, so a fuel of one step for each character and one more is never used up. A member
that is given twice keeps its first place and takes its last value.
-/

namespace LineScript.Json

namespace Parser

/-- The characters behind white space. -/
def skipBlank (chars : List Char) : List Char :=
  chars.dropWhile fun c => c == ' ' || c == '\n' || c == '\r' || c == '\t'

/-- The value of a hexadecimal digit. -/
def hexValue? (c : Char) : Option Nat :=
  if '0' ≤ c && c ≤ '9' then some (c.toNat - 48)
  else if 'a' ≤ c && c ≤ 'f' then some (c.toNat - 87)
  else if 'A' ≤ c && c ≤ 'F' then some (c.toNat - 55)
  else none

/-- A code unit in four hexadecimal digits. -/
def unit? : List Char → Option (Nat × List Char)
  | a :: b :: c :: d :: rest => do
    let value := (← hexValue? a) * 4096 + (← hexValue? b) * 256 + (← hexValue? c) * 16
    return (value + (← hexValue? d), rest)
  | _ => none

/-- The characters of a text behind its opening quote. -/
def textChars? : (fuel : Nat) → List Char → Option (List Char × List Char)
  | 0, _ => none
  | fuel + 1, chars =>
    let continueWith (c : Char) (rest : List Char) : Option (List Char × List Char) :=
      (textChars? fuel rest).map fun (inside, rest) => (c :: inside, rest)
    match chars with
    | [] => none
    | '"' :: rest => some ([], rest)
    | '\\' :: 'n' :: rest => continueWith '\n' rest
    | '\\' :: 'r' :: rest => continueWith '\r' rest
    | '\\' :: 't' :: rest => continueWith '\t' rest
    | '\\' :: 'f' :: rest => continueWith '\x0c' rest
    | '\\' :: 'b' :: rest => continueWith '\x08' rest
    | '\\' :: 'u' :: rest => do
      let (high, rest) ← unit? rest
      match rest with
      | '\\' :: 'u' :: others =>
        let (low, behind) ← unit? others
        if 0xd800 ≤ high && high < 0xdc00 && 0xdc00 ≤ low && low < 0xe000 then
          continueWith (Char.ofNat (0x10000 + (high - 0xd800) * 0x400 + (low - 0xdc00))) behind
        else continueWith (Char.ofNat high) rest
      | rest => continueWith (Char.ofNat high) rest
    | '\\' :: c :: rest => continueWith c rest
    | c :: rest => continueWith c rest

/-- The ASCII digits at the front of some characters, and the rest. -/
def digits (chars : List Char) : List Char × List Char :=
  (chars.takeWhile Char.isDigit, chars.dropWhile Char.isDigit)

/-- The number that ASCII digits write. -/
def natOf (chars : List Char) : Nat :=
  chars.foldl (fun value c => 10 * value + (c.toNat - 48)) 0

/-- The exponent at the front of some characters. -/
def exponent? (chars : List Char) : Option (Int × List Char) :=
  let signed (sign : Int) (chars : List Char) : Option (Int × List Char) :=
    match digits chars with
    | ([], _) => none
    | (power, rest) => some (sign * natOf power, rest)
  match chars with
  | '+' :: rest => signed 1 rest
  | '-' :: rest => signed (-1) rest
  | rest => signed 1 rest

/-- A number. -/
def number? (chars : List Char) : Option (Json × List Char) := do
  let (negative, chars) :=
    match chars with
    | '-' :: rest => (true, rest)
    | chars => (false, chars)
  let (whole, chars) := digits chars
  if whole.isEmpty then none
  let (fraction, chars) ←
    match chars with
    | '.' :: rest =>
      match digits rest with
      | ([], _) => none
      | (fraction, rest) => some (some fraction, rest)
    | chars => some (none, chars)
  let (power, chars) ←
    match chars with
    | 'e' :: rest => (exponent? rest).map fun (power, rest) => (some power, rest)
    | 'E' :: rest => (exponent? rest).map fun (power, rest) => (some power, rest)
    | chars => some (none, chars)
  if fraction.isNone && power.isNone then
    return (.int (if negative then -(natOf whole : Int) else natOf whole), chars)
  else
    let fraction := fraction.getD []
    let exponent := power.getD 0 - fraction.length
    return (.float (.ofDecimal negative (natOf (whole ++ fraction)) exponent), chars)

mutual

/-- A document at the front of some characters. -/
def document? : (fuel : Nat) → List Char → Option (Json × List Char)
  | 0, _ => none
  | fuel + 1, chars =>
    match skipBlank chars with
    | [] => none
    | 'n' :: 'u' :: 'l' :: 'l' :: rest => some (.null, rest)
    | 't' :: 'r' :: 'u' :: 'e' :: rest => some (.bool true, rest)
    | 'f' :: 'a' :: 'l' :: 's' :: 'e' :: rest => some (.bool false, rest)
    | '"' :: rest => (textChars? (rest.length + 1) rest).map fun (inside, rest) =>
        (.text (String.ofList inside), rest)
    | '[' :: rest =>
      match skipBlank rest with
      | ']' :: rest => some (.array [], rest)
      | rest => (items? fuel rest).map fun (items, rest) => (.array items, rest)
    | '{' :: rest =>
      match skipBlank rest with
      | '}' :: rest => some (.object [], rest)
      | rest => (members? fuel rest).map fun (members, rest) =>
          (.object (Entries.ofPairs members), rest)
    | chars => number? chars

/-- The items of an array behind its opening bracket or a comma. -/
def items? : (fuel : Nat) → List Char → Option (List Json × List Char)
  | 0, _ => none
  | fuel + 1, chars => do
    let (item, rest) ← document? fuel chars
    match skipBlank rest with
    | ',' :: rest => (items? fuel rest).map fun (items, rest) => (item :: items, rest)
    | ']' :: rest => some ([item], rest)
    | _ => none

/-- The members of an object behind its opening brace or a comma. -/
def members? : (fuel : Nat) → List Char → Option (List (String × Json) × List Char)
  | 0, _ => none
  | fuel + 1, chars => do
    let '"' :: rest := skipBlank chars | none
    let (name, rest) ← textChars? (rest.length + 1) rest
    let ':' :: rest := skipBlank rest | none
    let (item, rest) ← document? fuel rest
    let member := (String.ofList name, item)
    match skipBlank rest with
    | ',' :: rest => (members? fuel rest).map fun (members, rest) => (member :: members, rest)
    | '}' :: rest => some ([member], rest)
    | _ => none

end

end Parser

/-- The document that a text is. -/
def parse? (content : String) : Option Json :=
  let chars := content.toList
  match Parser.document? (2 * chars.length + 2) chars with
  | some (json, rest) => if (Parser.skipBlank rest).isEmpty then some json else none
  | none => none

end LineScript.Json
