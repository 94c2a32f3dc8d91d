import LineScript.Pattern.Basic

/-!
# Searching for a pattern

A tree is matched by backtracking. The match of a tree at a place is given a *goal*, what has to
match from the place reached; the first way of matching the tree from which the goal succeeds is
the answer. Alternatives are tried from left to right, greedy repetitions start with one more
round and lazy ones with none. A group keeps the text of its last round.

Beyond its least number of rounds a repetition goes on only from a round that moved forward, so
the characters ahead bound the rounds.
-/

namespace LineScript.Pattern

/-- A place in a text: the characters behind it, the nearest first, and those ahead of it. -/
structure Place where
  behind : List Char
  ahead : List Char
deriving DecidableEq, Repr

/-- The texts of the groups that took part, the latest first. -/
abbrev Captures := List (Nat × List Char)

/-- What has to match from a place reached with some captures. -/
abbrev Goal := Place → Captures → Option Captures

/-- A way to match something before a goal. -/
abbrev Matching := Place → Captures → Goal → Option Captures

/-- The text between two places of one text. -/
def Place.textUpTo (start stop : Place) : List Char :=
  start.ahead.take (start.ahead.length - stop.ahead.length)

/-- Whether an anchor holds at a place. -/
def Anchor.holds (anchor : Anchor) (place : Place) : Bool :=
  match anchor with
  | .textStart => place.behind.isEmpty
  | .lineStart => place.behind.isEmpty || place.behind.head? == some '\n'
  | .textEnd => place.ahead.isEmpty
  | .finalEnd => place.ahead.isEmpty || place.ahead == ['\n']
  | .lineEnd => place.ahead.isEmpty || place.ahead.head? == some '\n'
  | .boundary negated =>
    let isWord (c : Option Char) : Bool := (c.map Text.isWordChar).getD false
    -- an empty text has neither a boundary nor a place inside a word
    !(place.behind.isEmpty && place.ahead.isEmpty) &&
      (isWord place.behind.head? != isWord place.ahead.head?) != negated

/-- Rounds of a repetition that need not take place, at most `budget` of them and at most `most`
of them if that is a number. -/
def optionalRounds (greedy : Bool) (body : Matching) :
    (budget : Nat) → (most : Option Nat) → Matching
  | 0, _, place, captures, goal => goal place captures
  | _ + 1, some 0, place, captures, goal => goal place captures
  | budget + 1, most, place, captures, goal =>
    let another (_ : Unit) : Option Captures :=
      body place captures fun next held =>
        if next.ahead.length < place.ahead.length then
          optionalRounds greedy body budget (most.map (· - 1)) next held goal
        else goal next held
    if greedy then (another ()).orElse fun _ => goal place captures
    else (goal place captures).orElse another

/-- A repetition: `least` rounds that have to take place, then optional ones. -/
def rounds (greedy : Bool) (body : Matching) (more : Option Nat) : (least : Nat) → Matching
  | 0, place, captures, goal =>
    optionalRounds greedy body (place.ahead.length + 1) more place captures goal
  | least + 1, place, captures, goal =>
    body place captures fun next held => rounds greedy body more least next held goal

/-- The match of a tree. -/
def Node.run : Node → Matching
  | .empty, place, captures, goal => goal place captures
  | .one test, place, captures, goal =>
    match place.ahead with
    | [] => none
    | c :: rest => if test.accepts c then goal ⟨c :: place.behind, rest⟩ captures else none
  | .anchor condition, place, captures, goal =>
    if condition.holds place then goal place captures else none
  | .seq first second, place, captures, goal =>
    first.run place captures fun next held => second.run next held goal
  | .either first second, place, captures, goal =>
    (first.run place captures goal).orElse fun _ => second.run place captures goal
  | .group index body, place, captures, goal =>
    body.run place captures fun next held =>
      goal next ((index, place.textUpTo next) :: held)
  | .repeated least most greedy body, place, captures, goal =>
    rounds greedy body.run (most.map (· - least)) least place captures goal

/-- The captures of the leftmost match at or behind a place. -/
def Node.searchFrom (node : Node) (behind : List Char) : List Char → Option Captures
  | [] => node.run ⟨behind, []⟩ [] fun _ captures => some captures
  | c :: rest =>
    (node.run ⟨behind, c :: rest⟩ [] fun _ captures => some captures).orElse fun _ =>
      node.searchFrom (c :: behind) rest

/-- The texts of the groups of the leftmost match, in the order of the groups; `none` for a group
that took no part. -/
def groups? (pattern : Pattern) (text : List Char) : Option (List (Option (List Char))) :=
  (pattern.root.searchFrom [] text).map fun captures =>
    (List.range pattern.groups).map fun index => captures.lookup (index + 1)

end LineScript.Pattern
