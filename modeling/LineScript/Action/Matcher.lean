import LineScript.Action.Template
import LineScript.Pattern.Search
import LineScript.Session.Basic

/-!
# Matchers

What a matcher is made from: a text is a template, a pattern is searched for in the line, a
control value matches that control value alone, a function is called with the line, and a row of
these is the first of them that matches.

A match is a list of arguments. Asked for a match, a function may answer that its result is
*pending*; a row of matchers that meets such an answer is pending itself, and goes on with the
remaining matchers when the result is there. Rows that meet none answer at once.
-/

namespace LineScript

namespace Matcher

mutual

/-- The matcher made from a value. -/
def ofValue : Value → Except Fault Matcher
  | .sentinel mark => .ok (.sentinel mark)
  | .text template => .ok (.pattern (Template.pattern template))
  | .pattern source => .ok (.pattern source)
  | .list items => return .firstOf (← ofValues items)
  | .tuple items => return .firstOf (← ofValues items)
  | .callable function => .ok (.call function)
  | value => .error (.script (.invalidMatcher value.quoted))

/-- The matchers made from some values. -/
def ofValues : List Value → Except Fault (List Matcher)
  | [] => .ok []
  | value :: rest => return (← ofValue value) :: (← ofValues rest)

end

/-- The arguments of a match, if a result is one. -/
def arguments? (result : Value) : Option (List Value) :=
  result.items?

/-- The arguments that a pattern takes from a line. -/
def patternReply (pattern : Pattern) : Value → Value
  | .text line =>
    match pattern.groups? line.toList with
    | none => .null
    | some groups => .list (groups.map fun group =>
        match group with
        | none => .null
        | some chars => .text (String.ofList chars))
  | _ => .null

variable {Memory : Type}

/-- The answer of a matcher: a result, or a result to wait for and how to go on with it. -/
inductive Reply (Memory : Type) where
  | now (result : Value)
  | later (pending : Nat) (resume : Value → Query Memory Value)

/-- The result of an answer, waited for if it is pending. -/
def Reply.settle (host : Host Memory) : Reply Memory → Query Memory Value
  | .now result => pure result
  | .later pending resume => do resume (← host.await pending)

mutual

/-- Ask a matcher about a line. -/
def ask (host : Host Memory) (line : Value) : Matcher → Query Memory (Reply Memory)
  | .pattern source => return .now (patternReply source line)
  | .sentinel mark =>
    return .now (match line with
      | .sentinel other => if other = mark then .list [] else .null
      | _ => .null)
  | .call function => do
    match ← host.callMatcher function line with
    | .pending id => return .later id pure
    | .ready result => return .now result
  | .firstOf matchers => askFirst host line matchers

/-- Ask some matchers about a line until one matches or an answer is pending. -/
def askFirst (host : Host Memory) (line : Value) : List Matcher → Query Memory (Reply Memory)
  | [] => return .now .null
  | matcher :: others => do
    match ← ask host line matcher with
    | .later id resume =>
      return .later id fun awaited => do
        match arguments? (← resume awaited) with
        | some arguments => return .list arguments
        | none => settleFirst host line others
    | .now result =>
      match arguments? result with
      | some arguments => return .now (.list arguments)
      | none => askFirst host line others

/-- Ask some matchers about a line, waiting for each answer, until one matches. -/
def settleFirst (host : Host Memory) (line : Value) : List Matcher → Query Memory Value
  | [] => return .null
  | matcher :: others => do
    let reply ← ask host line matcher
    match arguments? (← reply.settle host) with
    | some arguments => return .list arguments
    | none => settleFirst host line others

end

/-- The arguments that a matcher takes from a line, if it matches. -/
def arguments (host : Host Memory) (matcher : Matcher) (line : Value) :
    Query Memory (Option (List Value)) := do
  let reply ← matcher.ask host line
  return arguments? (← reply.settle host)

end Matcher

end LineScript
