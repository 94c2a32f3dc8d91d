import LineScript.Pattern.Basic

/-!
# Reading patterns

The source of a pattern is read from left to right: alternatives are separated by bars, a
sequence is made of pieces, and a piece is an atom with an optional quantifier. Groups are
numbered by their opening parentheses. A source that breaks these rules has no tree. Left out, and
without a tree as well, are possessive quantifiers, references to groups, escapes by numbers, and
the groups that a question mark opens, other than those without a number.

Every step of the reader takes at least one character or goes one level down, so a fuel of four
steps for each character is never used up.
-/

namespace LineScript.Pattern

namespace Parser

/-- What is left of the source, and the groups opened so far. -/
structure Rest where
  chars : List Char
  groups : Nat
deriving Repr

/-- The number at the front of some characters, if they start with an ASCII digit. -/
def number? (chars : List Char) : Option Nat × List Char :=
  match chars.takeWhile Char.isDigit with
  | [] => (none, chars)
  | digits => (some (Text.numeral digits), chars.dropWhile Char.isDigit)

/-- The bounds of a counted quantifier behind its opening brace. -/
def counts? (chars : List Char) : Option (Nat × Option Nat × List Char) :=
  let (least, rest) := number? chars
  match least, rest with
  | none, '}' :: _ => none
  | _, ',' :: rest =>
    match number? rest with
    | (most, '}' :: rest) => some (least.getD 0, most, rest)
    | _ => none
  | some count, '}' :: rest => some (count, some count, rest)
  | _, _ => none

/-- The bounds of a quantifier at the front of some characters. -/
def quantifier? : List Char → Option (Nat × Option Nat × List Char)
  | '*' :: rest => some (0, none, rest)
  | '+' :: rest => some (1, none, rest)
  | '?' :: rest => some (0, some 1, rest)
  | '{' :: rest => counts? rest
  | _ => none

/-- The category of an escape, and whether it is the complement. -/
def category? : Char → Option (Bool × Category)
  | 'd' => some (false, .digit)
  | 'D' => some (true, .digit)
  | 's' => some (false, .blank)
  | 'S' => some (true, .blank)
  | 'w' => some (false, .word)
  | 'W' => some (true, .word)
  | _ => none

/-- The character that an escape stands for. Letters and digits stand for themselves only where
they name a control character. -/
def escaped? : Char → Option Char
  | 'n' => some '\n'
  | 't' => some '\t'
  | 'r' => some '\r'
  | 'f' => some '\x0c'
  | 'v' => some '\x0b'
  | 'a' => some '\x07'
  | c => if c.isAlphanum then none else some c

/-- The test for one literal character. -/
def literal (flags : Flags) (c : Char) : CharTest :=
  if flags.ignoreCase then .caseless c else .exactly c

/-- One end of a class item, behind its first character. -/
def classAtom? : List Char → Option (ClassItem × List Char)
  | [] => none
  | '\\' :: 'b' :: rest => some (.single '\x08', rest)
  | '\\' :: c :: rest =>
    match category? c with
    | some (negated, kind) => some (.category negated kind, rest)
    | none => (escaped? c).map fun char => (.single char, rest)
  | c :: rest => some (.single c, rest)

/-- The items of a character class up to its closing bracket. -/
def classItems? : (fuel : Nat) → (isFirst : Bool) → List Char →
    Option (List ClassItem × List Char)
  | 0, _, _ => none
  | fuel + 1, isFirst, chars =>
    match isFirst, chars with
    | false, ']' :: rest => some ([], rest)
    | _, chars => do
      let (item, rest) ← classAtom? chars
      match item, rest with
      | .single first, '-' :: ']' :: _ => do
        let (items, rest) ← classItems? fuel false rest
        pure (.single first :: items, rest)
      | .single first, '-' :: rest => do
        let (.single last, rest) ← classAtom? rest | none
        if last < first then none
        let (items, rest) ← classItems? fuel false rest
        pure (.range first last :: items, rest)
      | item, rest => do
        let (items, rest) ← classItems? fuel false rest
        pure (item :: items, rest)

/-- A character class behind its opening bracket. -/
def class? (flags : Flags) (chars : List Char) : Option (Node × List Char) :=
  let (negated, chars) :=
    match chars with
    | '^' :: rest => (true, rest)
    | chars => (false, chars)
  (classItems? (chars.length + 1) true chars).map fun (items, rest) =>
    (.one (.oneOf negated flags.ignoreCase items), rest)

/-- What an escape outside a class stands for. -/
def escape? (flags : Flags) (c : Char) : Option Node :=
  match c with
  | 'b' => some (.anchor (.boundary false))
  | 'B' => some (.anchor (.boundary true))
  | 'A' => some (.anchor .textStart)
  | 'Z' => some (.anchor .textEnd)
  | c =>
    match category? c with
    | some (negated, kind) => some (.one (.oneOf false false [.category negated kind]))
    | none => (escaped? c).map fun char => .one (literal flags char)

/-- Whether some characters start with an atom that a quantifier may follow; an anchor is none. -/
def isRepeatable : List Char → Bool
  | '^' :: _ => false
  | '$' :: _ => false
  | '\\' :: c :: _ => !(['b', 'B', 'A', 'Z'].contains c)
  | _ => true

mutual

/-- Sequences separated by bars. -/
def alternatives? (flags : Flags) : (fuel : Nat) → Rest → Option (Node × Rest)
  | 0, _ => none
  | fuel + 1, rest => do
    let (first, rest) ← sequence? flags fuel rest
    match rest.chars with
    | '|' :: chars => do
      let (others, rest) ← alternatives? flags fuel ⟨chars, rest.groups⟩
      pure (.either first others, rest)
    | _ => pure (first, rest)

/-- Pieces up to a bar, a closing parenthesis or the end. -/
def sequence? (flags : Flags) : (fuel : Nat) → Rest → Option (Node × Rest)
  | 0, _ => none
  | fuel + 1, rest =>
    match rest.chars with
    | [] => some (.empty, rest)
    | '|' :: _ => some (.empty, rest)
    | ')' :: _ => some (.empty, rest)
    | _ => do
      let (first, rest) ← piece? flags fuel rest
      let (others, rest) ← sequence? flags fuel rest
      pure (if others = .empty then first else .seq first others, rest)

/-- An atom with its quantifier, whose least count may not exceed its greatest one. -/
def piece? (flags : Flags) : (fuel : Nat) → Rest → Option (Node × Rest)
  | 0, _ => none
  | fuel + 1, rest => do
    let mayRepeat := isRepeatable rest.chars
    let (body, rest) ← atom? flags fuel rest
    match quantifier? rest.chars with
    | none => pure (body, rest)
    | some (least, most, chars) =>
      if !mayRepeat || most.any (· < least) then none
      match chars with
      | '?' :: chars => pure (.repeated least most false body, ⟨chars, rest.groups⟩)
      | chars => pure (.repeated least most true body, ⟨chars, rest.groups⟩)

/-- A character, an escape, a class, an anchor or a group. -/
def atom? (flags : Flags) : (fuel : Nat) → Rest → Option (Node × Rest)
  | 0, _ => none
  | fuel + 1, ⟨chars, groups⟩ =>
    match chars with
    | [] => none
    | '(' :: '?' :: ':' :: chars => do
      let (body, ⟨rest, groups⟩) ← alternatives? flags fuel ⟨chars, groups⟩
      match rest with
      | ')' :: rest => pure (body, ⟨rest, groups⟩)
      | _ => none
    | '(' :: '?' :: _ => none
    | '(' :: chars => do
      let (body, ⟨rest, inner⟩) ← alternatives? flags fuel ⟨chars, groups + 1⟩
      match rest with
      | ')' :: rest => pure (.group (groups + 1) body, ⟨rest, inner⟩)
      | _ => none
    | ')' :: _ => none
    | '*' :: _ => none
    | '+' :: _ => none
    | '?' :: _ => none
    | '{' :: chars =>
      -- A brace that opens no counts is a character like others.
      if (counts? chars).isSome then none
      else some (.one (literal flags '{'), ⟨chars, groups⟩)
    | '[' :: chars => (class? flags chars).map fun (node, rest) => (node, ⟨rest, groups⟩)
    | '\\' :: c :: chars => (escape? flags c).map fun node => (node, ⟨chars, groups⟩)
    | ['\\'] => none
    | '.' :: chars =>
      some (.one (if flags.dotAll then .anyChar else .anyButBreak), ⟨chars, groups⟩)
    | '^' :: chars =>
      some (.anchor (if flags.multiline then .lineStart else .textStart), ⟨chars, groups⟩)
    | '$' :: chars =>
      some (.anchor (if flags.multiline then .lineEnd else .finalEnd), ⟨chars, groups⟩)
    | c :: chars => some (.one (literal flags c), ⟨chars, groups⟩)

end

end Parser

/-- The pattern that a source stands for. -/
def ofSource? (flags : Flags) (source : String) : Option Pattern :=
  let chars := source.toList
  match Parser.alternatives? flags (4 * chars.length + 4) ⟨chars, 0⟩ with
  | some (root, ⟨[], groups⟩) => some ⟨source, flags, root, groups⟩
  | _ => none

end LineScript.Pattern
