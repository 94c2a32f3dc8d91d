import LineScript.Text.Quoted

/-!
# Failures

A computation fails with a *fault*, an error that cleanup code may react to, or with an *abort*,
which goes through everything. A fault is a cause; its wording is in `Fault.message`. The faults
of scripts, registrations and lines have a message of their own and may carry the number of a
line.
-/

namespace LineScript

/-- The kinds of faults in scripts, with what each is about. -/
inductive ScriptFault.Kind where
  | general
  | invalidMatcher
  | invalidRegistration
  | invalidHandler
  | unrecognizedLine (text : Option String)
  | unknownReference (name : Option String)
  | unrecognizedLines (lines : List String)
deriving DecidableEq, Repr

/-- A fault in a script or in what a script is run with. -/
structure ScriptFault where
  kind : ScriptFault.Kind
  message : String
  line : Option Int := none
deriving DecidableEq, Repr

namespace ScriptFault

/-- The message with the number of the line. -/
def shown (fault : ScriptFault) : String :=
  match fault.line with
  | none => fault.message
  | some line => fault.message ++ " (line " ++ toString line ++ ")"

/-- The kind that a kind is a special case of. -/
def Kind.parent? : Kind → Option Kind
  | .general => none
  | .invalidHandler => some .invalidRegistration
  | _ => some .general

/-- Whether two faults are equal: of the same kind, with the same message and line, and about the
same thing. Lists of unrecognized lines are told apart by their message alone. -/
def isEqual (first second : ScriptFault) : Bool :=
  match first.kind, second.kind with
  | .unrecognizedLines _, .unrecognizedLines _ =>
    first.message == second.message && first.line == second.line
  | _, _ => first == second

/-- A matcher that has no meaning. -/
def invalidMatcher (shown : String) : ScriptFault :=
  ⟨.invalidMatcher, "Invalid matcher: " ++ shown, none⟩

/-- A handler that has no meaning. -/
def invalidHandler (shown : String) : ScriptFault :=
  ⟨.invalidHandler, "Invalid handler: " ++ shown, none⟩

/-- A registration of a kind that holds no actions. -/
def invalidRegistration (kind : String) : ScriptFault :=
  ⟨.invalidRegistration, "Invalid registration: " ++ kind, none⟩

/-- A line that no action recognizes when it is executed. -/
def unrecognizedLine (text : String) : ScriptFault :=
  ⟨.unrecognizedLine (some text), "Unrecognized Line: " ++ text, none⟩

/-- An argument that names a missing state entry. -/
def unknownReference (name : String) : ScriptFault :=
  ⟨.unknownReference (some name), "Unknown Reference: " ++ name, none⟩

/-- The diagnostics of the lines that no action recognizes before a script is executed. -/
def unrecognizedLines (lines : List String) : ScriptFault :=
  ⟨.unrecognizedLines lines, "Line Errors:\n" ++ "\n".intercalate lines, none⟩

end ScriptFault

/-- Why a value is no truth value: its text means none, or values of its kind never do. -/
inductive TruthProblem where
  | meaning
  | kind
deriving DecidableEq, Repr

/-- The causes of errors. -/
inductive Fault where
  | script (fault : ScriptFault)
  | notIterable (kind : String)
  | noAttribute (kind name : String)
  | notAState (shown : String)
  | invalidCommon (problem : TruthProblem)
  | pairOfWrongLength (index length : Nat)
  | pairWithoutLength (index : Nat)
  | nameIsNoText
  | repeatedArgument (function argument : String)
  | keyIsNoText (kind : String)
  | missingKey (key : String)
  | missingArgument
  | tooManyDigits (count : Nat)
  | quotientTooLarge
  | alreadyAwaited
  | notText
  | directory (path : String)
  | thrown (kind message : String)
deriving DecidableEq, Repr

namespace Fault

/-- The message of a fault; bytes that are no text have none. -/
def message? : Fault → Option String
  | .script fault => some fault.shown
  | .notIterable kind => some ("'" ++ kind ++ "' object is not iterable")
  | .noAttribute kind name =>
    some ("'" ++ kind ++ "' object has no attribute '" ++ name ++ "'")
  | .notAState shown => some ("state must be a mutable mapping: " ++ shown)
  | .invalidCommon .meaning => some "common=bool_parsing"
  | .invalidCommon .kind => some "common=bool_type"
  | .pairOfWrongLength index length =>
    some ("dictionary update sequence element #" ++ toString index ++ " has length " ++
      toString length ++ "; 2 is required")
  | .pairWithoutLength index =>
    some ("cannot convert dictionary update sequence element #" ++ toString index ++
      " to a sequence")
  | .nameIsNoText => some "keywords must be strings"
  | .repeatedArgument function argument =>
    some (function ++ "() got multiple values for argument '" ++ argument ++ "'")
  | .keyIsNoText kind =>
    some ("keys must be str, int, float, bool or None, not " ++ kind)
  | .missingKey key => some (Text.quoted key)
  | .missingArgument => some "tuple index out of range"
  | .tooManyDigits count =>
    some ("Exceeds the limit (4300 digits) for integer string conversion: value has " ++
      toString count ++ " digits; use sys.set_int_max_str_digits() to increase the limit")
  | .quotientTooLarge => some "integer division result too large for a float"
  | .alreadyAwaited => some "cannot reuse already awaited coroutine"
  | .notText => none
  | .directory path => some ("[Errno 21] Is a directory: " ++ Text.quoted path)
  | .thrown _ message => some message

/-- The message of a fault as a part of another message. -/
def message (fault : Fault) : String :=
  fault.message?.getD ""

end Fault

/-- The ways a computation ends without a result. `outOfFuel` is the end of a computation that
was cut off. -/
inductive Failure where
  | fault (fault : Fault)
  | abort (kind message : String)
  | outOfFuel
deriving DecidableEq, Repr

end LineScript
