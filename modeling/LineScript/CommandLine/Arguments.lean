import LineScript.CommandLine.StateOptions
import LineScript.Text.Digit

/-!
# Arguments

The command line takes any number of paths and a few options. An option may be shortened as long
as it stays unique. The paths are the first arguments in a row that are neither options nor their
operands; such arguments that come later, behind another option, are not recognized. Behind `--`
nothing is an option. Options take effect, and mistakes are found, from left to right.
-/

namespace LineScript.CommandLine

/-- The options. -/
inductive OptionName where
  | help
  | version
  | output
  | noBundled
deriving DecidableEq, Repr

/-- The spellings of the options. -/
def spellings : List (String × OptionName) :=
  [("-h", .help), ("--help", .help), ("--version", .version), ("--output", .output),
    ("--no-bundled", .noBundled)]

/-- The name of an option in a message. -/
def OptionName.shown : OptionName → String
  | .help => "-h/--help"
  | .version => "--version"
  | .output => "--output"
  | .noBundled => "--no-bundled"

/-- The formats of the final state. -/
def outputFormats : List String := ["json", "text"]

/-- A mistake on the command line. -/
inductive UsageFault where
  | ambiguous (argument : String) (candidates : List String)
  | needsOperand (option : OptionName)
  | takesNoOperand (option : OptionName) (operand : String)
  | unknownFormat (operand : String)
  | unrecognized (arguments : List String)
deriving Repr

/-- The message of a mistake. -/
def UsageFault.message : UsageFault → String
  | .ambiguous argument candidates =>
    "ambiguous option: " ++ argument ++ " could match " ++ ", ".intercalate candidates
  | .needsOperand option => "argument " ++ option.shown ++ ": expected one argument"
  | .takesNoOperand option operand =>
    "argument " ++ option.shown ++ ": ignored explicit argument " ++ Text.quoted operand
  | .unknownFormat operand =>
    "argument " ++ OptionName.output.shown ++ ": invalid choice: " ++ Text.quoted operand ++
      " (choose from " ++ ", ".intercalate (outputFormats.map Text.quoted) ++ ")"
  | .unrecognized arguments => "unrecognized arguments: " ++ " ".intercalate arguments

/-- What one argument is: a word that is no option, the end of the options, or an option. The
operand of an option may be joined to it, by an equals sign or, for a spelling of one letter,
directly. -/
inductive ArgumentKind where
  | word
  | endOfOptions
  | known (option : OptionName)
  | joined (option : OptionName) (operand : String)
  | letters (tail : List Char)
  | unknown
deriving Repr

/-- Whether some characters, all but a line feed at the end, are digits, one at least. -/
def areDigits (chars : List Char) : Bool :=
  let chars := if chars.getLast? = some '\n' then chars.dropLast else chars
  !chars.isEmpty && chars.all Text.isDigit

/-- Whether an argument is a negative number, and so no option. -/
def isNegativeNumber : List Char → Bool
  | '-' :: rest =>
    areDigits rest ||
      match rest.dropWhile Text.isDigit with
      | '.' :: fraction => areDigits fraction
      | _ => false
  | _ => false

/-- The spellings that start with some text. -/
def completions (start : String) : List (String × OptionName) :=
  spellings.filter fun spelling => start.toList.isPrefixOf spelling.1.toList

/-- What an argument before `--` is. -/
def kindOf (argument : String) : Except UsageFault ArgumentKind :=
  match argument.toList, spellings.lookup argument with
  | _, some option => .ok (.known option)
  | '-' :: next :: rest, none =>
    let (name, operand) := nameAndValue argument
    match operand, spellings.lookup name with
    | some operand, some option => .ok (.joined option operand)
    | _, _ =>
      let other : ArgumentKind :=
        if isNegativeNumber argument.toList || argument.toList.contains ' ' then .word
        else .unknown
      if next = '-' then
        match completions name, operand with
        | [], _ => .ok other
        | [(_, option)], none => .ok (.known option)
        | [(_, option)], some operand => .ok (.joined option operand)
        | candidates, _ => .error (.ambiguous argument (candidates.map Prod.fst))
      else if next = 'h' then .ok (.letters rest)
      else .ok other
  | _, none => .ok .word

/-- What the arguments are. -/
def kindsOf : List String → Except UsageFault (List (String × ArgumentKind))
  | [] => .ok []
  | "--" :: rest => .ok (("--", .endOfOptions) :: rest.map fun argument => (argument, .word))
  | argument :: rest => do
    let kind ← kindOf argument
    return (argument, kind) :: (← kindsOf rest)

/-- What the command line asks for. -/
structure Request where
  paths : List String := []
  output : Option String := none
  noBundled : Bool := false
deriving DecidableEq, Repr

/-- The end of the reading of the arguments: a request, or a text to show instead. -/
inductive Reading where
  | request (request : Request)
  | help
  | version
deriving Repr

/-- What has been read: the request so far, whether the paths have been, and the arguments that
are not recognized. -/
structure ReadSoFar where
  request : Request := {}
  hasPaths : Bool := false
  extras : List String := []
deriving Repr

/-- Whether an argument belongs to a row of words. -/
def ArgumentKind.isWord : ArgumentKind → Bool
  | .word => true
  | .endOfOptions => true
  | _ => false

/-- The words read at the end of a row: the paths, or arguments that are not recognized. -/
def ReadSoFar.addWords (read : ReadSoFar) (words : List String) : ReadSoFar :=
  if words.isEmpty then read
  else if read.hasPaths then { read with extras := read.extras ++ words }
  else { read with request := { read.request with paths := words.erase "--" }, hasPaths := true }

/-- The format of the final state set. -/
def ReadSoFar.setOutput (read : ReadSoFar) (operand : String) : Except UsageFault ReadSoFar :=
  if outputFormats.contains operand then
    .ok { read with request := { read.request with output := some operand } }
  else .error (.unknownFormat operand)

/-- The fault of letters behind `-h`, if they are no letters that may be joined. -/
def lettersFault? : List Char → Option String
  | [] => none
  | '-' :: rest => some (String.ofList ('-' :: rest))
  | 'h' :: '=' :: rest => some (String.ofList rest)
  | 'h' :: rest => lettersFault? rest
  | _ => none

/-- Read the arguments from a point on, where `words` is the row of words just before it. -/
def readFrom (read : ReadSoFar) (words : List String) :
    List (String × ArgumentKind) → Except UsageFault Reading
  | [] =>
    let read := read.addWords words
    if read.extras.isEmpty then .ok (.request read.request)
    else .error (.unrecognized read.extras)
  | (argument, .word) :: rest => readFrom read (words ++ [argument]) rest
  | (argument, .endOfOptions) :: rest => readFrom read (words ++ [argument]) rest
  | (argument, .unknown) :: rest =>
    let read := read.addWords words
    readFrom { read with extras := read.extras ++ [argument] } [] rest
  | (_, .letters tail) :: _ =>
    match lettersFault? tail with
    | some operand => .error (.takesNoOperand .help operand)
    | none => .ok .help
  | (_, .known .help) :: _ => .ok .help
  | (_, .known .version) :: _ => .ok .version
  | (_, .known .noBundled) :: rest =>
    let read := read.addWords words
    readFrom { read with request := { read.request with noBundled := true } } [] rest
  | (_, .known .output) :: (operand, .word) :: rest => do
    readFrom (← (read.addWords words).setOutput operand) [] rest
  | (_, .known .output) :: _ => .error (.needsOperand .output)
  | (_, .joined .output operand) :: rest => do
    readFrom (← (read.addWords words).setOutput operand) [] rest
  | (_, .joined option operand) :: _ => .error (.takesNoOperand option operand)

/-- Read the arguments of the command line. -/
def readArguments (arguments : List String) : Except UsageFault Reading := do
  readFrom {} [] (← kindsOf arguments)

/-- How the command is used. -/
def usage : String :=
  "usage: otto [-h] [--version] [--output \x7bjson,text\x7d] [--no-bundled] [paths ...]\n"

/-- The help text. -/
def helpText : String :=
  usage ++
  "\nRun line-oriented Ottomaton scripts\n\n" ++
  "positional arguments:\n" ++
  "  paths                 Action libraries (Python files or module names\n" ++
  "                        defining ACTIONS) and .txt scripts\n\n" ++
  "options:\n" ++
  "  -h, --help            show this help message and exit\n" ++
  "  --version             show program's version number and exit\n" ++
  "  --output \x7bjson,text\x7d  Print the final state after the scripts ran\n" ++
  "  --no-bundled          Do not register the bundled actions\n\n" ++
  "Any other --KEY VALUE option is added to the initial script state.\n"

/-- The version text, for a version of the runtime. -/
def versionText (runtime : String) : String :=
  "Ottomaton 1.0.0 (Python " ++ runtime ++ ")\n"

/-- What is written about a mistake. -/
def UsageFault.report (fault : UsageFault) : String :=
  usage ++ "otto: error: " ++ fault.message ++ "\n"

end LineScript.CommandLine
