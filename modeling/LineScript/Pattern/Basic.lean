import LineScript.Text.Blank
import LineScript.Text.Digit
import LineScript.Text.Word
import LineScript.Text.LetterCase

/-!
# Patterns

A pattern is a tree of single-character tests, anchors, sequences, alternatives, numbered groups
and repetitions, together with the source text and the flags it was read with. The flags are
resolved while reading, so the tree alone decides what the pattern matches.
-/

namespace LineScript

/-- The modes a pattern can be read in. -/
structure Pattern.Flags where
  ignoreCase : Bool := false
  multiline : Bool := false
  dotAll : Bool := false
deriving DecidableEq, Repr

/-- A set of characters that an escape stands for. -/
inductive Pattern.Category where
  | digit
  | blank
  | word
deriving DecidableEq, Repr

/-- One member of a character class. -/
inductive Pattern.ClassItem where
  | single (c : Char)
  | range (first last : Char)
  | category (negated : Bool) (kind : Pattern.Category)
deriving DecidableEq, Repr

/-- A test of one character. -/
inductive Pattern.CharTest where
  | exactly (c : Char)
  | caseless (c : Char)
  | anyChar
  | anyButBreak
  | oneOf (negated ignoreCase : Bool) (items : List Pattern.ClassItem)
deriving DecidableEq, Repr

/-- A condition on a place between two characters. -/
inductive Pattern.Anchor where
  | textStart
  | lineStart
  | textEnd
  | finalEnd
  | lineEnd
  | boundary (negated : Bool)
deriving DecidableEq, Repr

/-- The tree of a pattern. -/
inductive Pattern.Node where
  | empty
  | one (test : Pattern.CharTest)
  | anchor (condition : Pattern.Anchor)
  | seq (first second : Pattern.Node)
  | either (first second : Pattern.Node)
  | group (index : Nat) (body : Pattern.Node)
  | repeated (least : Nat) (most : Option Nat) (greedy : Bool) (body : Pattern.Node)
deriving DecidableEq, Repr

/-- A pattern with the text it is written as. -/
structure Pattern where
  source : String
  flags : Pattern.Flags
  root : Pattern.Node
  groups : Nat
deriving DecidableEq, Repr

namespace Pattern

/-- Whether a character belongs to a category. -/
def Category.contains (category : Category) (c : Char) : Bool :=
  match category with
  | .digit => Text.isDigit c
  | .blank => Text.isBlank c
  | .word => Text.isWordChar c

/-- Whether a character, or one that differs from it in case where case is ignored, is a member
of a class item. -/
def ClassItem.contains (ignoreCase : Bool) (item : ClassItem) (c : Char) : Bool :=
  match item with
  | .single d => if ignoreCase then Text.sameFold d c else d == c
  | .range first last =>
    if ignoreCase then
      (Text.caseVariants c).any fun code => first.toNat ≤ code && code ≤ last.toNat
    else first ≤ c && c ≤ last
  | .category negated kind => kind.contains c != negated

/-- Whether a character passes a test. -/
def CharTest.accepts (test : CharTest) (c : Char) : Bool :=
  match test with
  | .exactly d => c == d
  | .caseless d => Text.sameFold d c
  | .anyChar => true
  | .anyButBreak => c != '\n'
  | .oneOf negated ignoreCase items =>
    (items.any fun item => item.contains ignoreCase c) != negated

/-- The sequence of some trees. -/
def Node.sequence : List Node → Node
  | [] => .empty
  | [node] => node
  | node :: rest => .seq node (sequence rest)

/-- The tree that matches exactly the given characters. -/
def Node.literal (chars : List Char) : Node :=
  Node.sequence (chars.map fun c => .one (.exactly c))

end Pattern

end LineScript
