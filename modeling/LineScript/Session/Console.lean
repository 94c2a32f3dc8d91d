import LineScript.Fault

/-!
# The console

Keys are read from the console one by one. On a terminal a key has to arrive at once, so the mode
of the terminal is saved and set to raw before the key is read, and restored afterwards, whether
the reading succeeds or not. Elsewhere a character is simply taken from the input.
-/

namespace LineScript

/-- An operation on a terminal with a descriptor. -/
inductive TerminalCall where
  | saveMode (descriptor : Nat)
  | setRaw (descriptor : Nat)
  | readChars (count : Nat)
  | restoreMode (descriptor : Nat)
deriving DecidableEq, Repr

/-- Where keys come from: the characters left, the descriptor if it is a terminal, the fault that
reading ends with if it does, and the operations so far, the latest first. -/
structure Console where
  input : List Char
  terminal : Option Nat := none
  broken : Option Fault := none
  calls : List TerminalCall := []
deriving Repr

namespace Console

/-- Record an operation. -/
def record (console : Console) (call : TerminalCall) : Console :=
  { console with calls := call :: console.calls }

/-- Take a character from the input, which may be at its end. -/
def take (console : Console) : Except Fault (Option Char) × Console :=
  match console.broken, console.input with
  | some fault, _ => (.error fault, console)
  | none, [] => (.ok none, console)
  | none, c :: rest => (.ok (some c), { console with input := rest })

/-- Read a key. -/
def readKey (console : Console) : Except Fault (Option Char) × Console :=
  match console.terminal with
  | none => console.take
  | some descriptor =>
    let ready := ((console.record (.saveMode descriptor)).record (.setRaw descriptor)).record
      (.readChars 1)
    let (key, after) := ready.take
    (key, after.record (.restoreMode descriptor))

/-- Take all characters that are left, unless reading fails. -/
def takeAll (console : Console) : Except Fault (List Char) × Console :=
  match console.broken with
  | some fault => (.error fault, console)
  | none => (.ok console.input, { console with input := [] })

end Console

end LineScript
