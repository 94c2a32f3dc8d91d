import LineScript.Value.Entries

/-!
# Options for the state

Any option `--NAME VALUE`, `--NAME=VALUE` or `--NAME` that is no option of the command line itself
is an entry of the initial state. The arguments are cut into pieces: such entries, and arguments
that are kept for the command line. The operand of `--output` is kept whatever it looks like.
-/

namespace LineScript.CommandLine

/-- The options of the command line itself. -/
def ownOptions : List String := ["-h", "--help", "--version", "--output", "--no-bundled"]

/-- The option that takes an operand. -/
def outputOption : String := "--output"

/-- The characters before the first equals sign, and those behind it if there is one. -/
def cutAtEquals : List Char → List Char × Option (List Char)
  | [] => ([], none)
  | c :: rest =>
    if c = '=' then ([], some rest)
    else
      let (name, value) := cutAtEquals rest
      (c :: name, value)

/-- The name of an option with the value behind an equals sign. -/
def nameAndValue (argument : String) : String × Option String :=
  let (name, value) := cutAtEquals argument.toList
  (String.ofList name, value.map String.ofList)

/-- Whether some characters start with two hyphens. -/
def isLong (chars : List Char) : Bool :=
  chars.take 2 == ['-', '-']

/-- Whether an argument is kept for the command line. -/
def isKept (argument : String) : Bool :=
  !isLong argument.toList || argument == "--" || ownOptions.contains (nameAndValue argument).1

/-- A piece of a command line. -/
inductive ArgumentPiece where
  | kept (arguments : List String)
  | entry (name : String) (value : Value)
deriving Repr

/-- The pieces of a command line. -/
def pieces : List String → List ArgumentPiece
  | [] => []
  | argument :: rest =>
    if isKept argument then
      match nameAndValue argument == (outputOption, none), rest with
      | true, operand :: rest => .kept [argument, operand] :: pieces rest
      | _, rest => .kept [argument] :: pieces rest
    else
      let name := String.ofList ((nameAndValue argument).1.toList.drop 2)
      match (nameAndValue argument).2, rest with
      | some value, rest => .entry name (.text value) :: pieces rest
      | none, [] => [.entry name (.bool true)]
      | none, next :: rest =>
        if isLong next.toList then .entry name (.bool true) :: pieces (next :: rest)
        else .entry name (.text next) :: pieces rest

/-- The arguments that are kept. -/
def keptArguments (pieces : List ArgumentPiece) : List String :=
  pieces.flatMap fun piece =>
    match piece with
    | .kept arguments => arguments
    | .entry .. => []

/-- The entries for the state. -/
def stateEntries (pieces : List ArgumentPiece) : Entries Value :=
  Entries.ofPairs (pieces.filterMap fun piece =>
    match piece with
    | .kept _ => none
    | .entry name value => some (name, value))

/-- The arguments that are kept, and the initial state. -/
def splitStateOptions (arguments : List String) : List String × Entries Value :=
  let pieces := pieces arguments
  (keptArguments pieces, stateEntries pieces)

end LineScript.CommandLine
