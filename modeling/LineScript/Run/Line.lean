import LineScript.Vocabulary.Engine

/-!
# Executing one line

A line is offered to the actions in order. Each that matches handles it, with the arguments it
took or, if there are none, with the line itself. A result that is a control value or a text or
row that is not empty may *replace* the line; the first one does, and after a result DONE the
line is offered to no further action.
-/

namespace LineScript

/-- A handler's result that may replace a line. -/
inductive Replacement where
  | sentinel (mark : Sentinel)
  | text (content : String)
  | items (items : List Value)
deriving Repr

/-- What a line leads to: the next line, some lines instead of it, or the end of the line or of
the script. -/
inductive LineOutcome where
  | proceed
  | rewrite (lines : List Line)
  | stopLine
  | stopScript
deriving DecidableEq, Repr

namespace Replacement

/-- The replacement that a result is. -/
def ofValue? : Value → Option Replacement
  | .sentinel mark => some (.sentinel mark)
  | .text content => if content.isEmpty then none else some (.text content)
  | .list members => if members.isEmpty then none else some (.items members)
  | .tuple members => if members.isEmpty then none else some (.items members)
  | _ => none

/-- Whether a replacement is the control value DONE. -/
def isDone : Replacement → Bool
  | .sentinel .done => true
  | _ => false

/-- The lines of a replacement. -/
def lines : Replacement → List Line
  | .sentinel mark => [.sentinel mark]
  | .text content => (Script.ofText content).map Prod.snd
  | .items members => (Script.ofItems members).map Prod.snd

end Replacement

namespace Action

variable {Memory : Type}

/-- The arguments that an action takes from a line, if it matches. -/
def matched (host : Host Memory) (action : Action) (line : Line) :
    Query Memory (Option (List Value)) :=
  action.matcher.arguments host line.toValue

/-- The result of a handler. -/
def handle (host : Host Memory) (handler : Handler) (arguments : List Value) :
    Procedure Memory Value :=
  match handler with
  | .line content => return content.toValue
  | .lines contents => return .list (contents.map Line.toValue)
  | .bundled function => Bundled.perform host function arguments
  | .call function => do
    match ← host.callHandler function arguments with
    | .pending id => host.await id
    | .ready result => return result

/-- Handle a line that has been matched. -/
def perform (host : Host Memory) (action : Action) (line : Line) (taken : List Value) :
    Procedure Memory Value := do
  let arguments := if taken.isEmpty then [line.toValue] else taken
  if action.deref.truthy then
    match (← Procedure.state).dereferenceAll arguments with
    | .ok arguments => handle host action.handler arguments
    | .error fault => throw (.fault fault)
  else handle host action.handler arguments

end Action

namespace Run

/-- What the actions tried so far have done with a line. -/
structure LineProgress where
  recognized : Bool
  replacement : Option Replacement
deriving Repr

/-- What is known of a line before any action has been tried. -/
def LineProgress.start : LineProgress := ⟨false, none⟩

variable {Memory : Type}

/-- Offer a line to actions. -/
def offer (host : Host Memory) (line : Line) :
    List Action → LineProgress → Procedure Memory LineProgress
  | [], progress => return progress
  | action :: others, progress => do
    if !action.accepts line.toValue then offer host line others progress
    else
      match ← action.matched host line with
      | none => offer host line others progress
      | some taken =>
        let result ← action.perform host line taken
        match Replacement.ofValue? result with
        | none =>
          if result.truthy then Procedure.note (.ignored result)
          offer host line others ⟨true, progress.replacement⟩
        | some replacement =>
          let progress := ⟨true, progress.replacement.or (some replacement)⟩
          if replacement.isDone then return progress
          else offer host line others progress

/-- What a line leads to when all actions have been tried. -/
def outcome (line : Line) (progress : LineProgress) : Except Fault LineOutcome :=
  match progress.replacement, line with
  | some (.sentinel .done), _ => .ok .stopLine
  | some (.sentinel .finish), _ => .ok .stopScript
  | _, .sentinel .finish => .ok .stopScript
  | _, .sentinel .done => .ok .stopLine
  | some replacement, .text _ => .ok (.rewrite replacement.lines)
  | none, .text content =>
    if progress.recognized then .ok .proceed
    else .error (.script (.unrecognizedLine content))

/-- Execute one line. -/
def executeLine (host : Host Memory) (actions : List Action) (line : Line) :
    Procedure Memory LineOutcome := do
  Procedure.note (.executing line)
  let progress ← offer host line actions .start
  match outcome line progress with
  | .ok outcome => return outcome
  | .error fault => throw (.fault fault)

end Run

end LineScript
