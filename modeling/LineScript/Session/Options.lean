import LineScript.Fault
import LineScript.Text.Blank
import LineScript.Text.LetterCase
import LineScript.Value.Entries

/-!
# Options

An engine has one option of its own, `common`, which says whether comments are skipped; every
other option is kept for libraries to read. Options are *loaded* from an environment, over which
settings are laid, and `common` is then checked. Settings laid over options that exist already
are not checked.

An environment is a mapping; a setting named `env` stands for it.

Options are a pydantic model (version 2) with the one field `common: bool` that allows extra fields,
and what such a model does is stated here as pydantic documents it: `truthOf` is the validation of a
`bool` in lax mode, `ofSettings` makes a model of keyword arguments and keeps those without a field
as extras, and `withSettings` is `model_copy` with `update`, which does not validate.
-/

namespace LineScript

/-- The variables of the process. -/
abbrev Environment := Entries String

namespace Options

/-- The variable that says whether comments are skipped. -/
def commonVariable : String := "OTTOMATON_COMMON"

/-- The variable that names the level from which on notices are shown. -/
def levelVariable : String := "OTTOMATON_LOG_LEVEL"

/-- The texts that mean no, in small letters. -/
def noTexts : List String := ["0", "off", "f", "false", "n", "no"]

/-- The texts that mean yes, in small letters. -/
def yesTexts : List String := ["1", "on", "t", "true", "y", "yes"]

/-- The bound of the integers of 64 bits. -/
def wordBound : Int := Nat.pow 2 63

/-- The truth value that a whole number stands for. A number below the least one that is read, or
not below the bound of the integers of 64 bits, is treated like a value of another kind. -/
def truthOfInt (least i : Int) : Except Fault Bool :=
  if i < least ∨ wordBound ≤ i then .error (.invalidCommon .kind)
  else if i = 0 then .ok false
  else if i = 1 then .ok true
  else .error (.invalidCommon .meaning)

/-- The truth value that a value of an option stands for. The least integer of 64 bits is read as an
integer, and not as a float. -/
def truthOf : Value → Except Fault Bool
  | .bool b => .ok b
  | .int i => truthOfInt (-wordBound) i
  | .float x =>
    match x.toInt? with
    | some i => truthOfInt (1 - wordBound) i
    | none => .error (.invalidCommon .kind)
  | .text content =>
    let content := content.map Char.toLower
    if noTexts.contains content then .ok false
    else if yesTexts.contains content then .ok true
    else .error (.invalidCommon .meaning)
  | _ => .error (.invalidCommon .kind)

/-- The options made of some settings, `common` being true by default. -/
def ofSettings (settings : Entries Value) : Except Fault Options := do
  let common ← truthOf ((settings.get? "common").getD (.bool true))
  return ⟨.bool common, settings.erase "common"⟩

/-- The process environment as a mapping. -/
def ofProcess (environment : Environment) : Value :=
  Value.ofEntries (environment.map fun entry => (entry.1, .text entry.2))

/-- The value that an environment has under a name. -/
def valueUnder (environment : Value) (name : String) : Except Fault Value :=
  match environment with
  | .dict entries => .ok ((Value.lookup? entries name).getD .null)
  | value => .error (.noAttribute value.qualifiedKind "get")

/-- Whether an environment says that comments are skipped; they are unless it says something. -/
def commonIn (environment : Value) : Except Fault Bool := do
  match ← valueUnder environment commonVariable with
  | .null => return true
  | value =>
    return ["1", "true", "yes", "on"].contains (Text.inSmallLetters (Text.trim value.shown))

/-- The options from an environment, that of the process unless one is given, with settings laid
over it. -/
def load (process : Environment) (given : Value) (settings : Entries Value) :
    Except Fault Options := do
  let environment :=
    match given with
    | .null => ofProcess process
    | environment => environment
  let common ← commonIn environment
  ofSettings (Entries.putAll [("common", .bool common)] settings)

/-- The options from settings, one of which may be the environment. -/
def loadSettings (process : Environment) (settings : Entries Value) : Except Fault Options :=
  load process ((settings.get? "env").getD .null) (settings.erase "env")

/-- The pair that an item of a row of pairs is. -/
def pairOf (index : Nat) (item : Value) : Except Fault (Value × Value) :=
  let parts : Option (List Value) :=
    match item with
    | .text content => some (content.toList.map fun c => .text (String.singleton c))
    | .dict entries => some (entries.map Prod.fst)
    | item => item.items?
  match parts with
  | none => .error (.pairWithoutLength index)
  | some [key, value] => .ok (key, value)
  | some parts => .error (.pairOfWrongLength index parts.length)

/-- The entries that a mapping or a row of pairs holds. -/
def entriesOf (value : Value) : Except Fault (List (Value × Value)) :=
  let pairs (items : List Value) : Except Fault (List (Value × Value)) := do
    return Value.keyed (← items.zipIdx.mapM fun item => pairOf item.2 item.1)
  match value with
  | .dict entries => .ok entries
  | .list items => pairs items
  | .tuple items => pairs items
  | .text content => pairs (content.toList.map fun c => .text (String.singleton c))
  | .options ⟨common, extras⟩ => .ok ((.text "common", common) ::
      extras.map fun entry => (.text entry.1, entry.2))
  | value => .error (.notIterable value.qualifiedKind)

/-- Settings laid over options, without a check. -/
def withSettings (options : Options) (settings : Entries Value) : Options :=
  settings.foldl (fun options setting =>
    if setting.1 = "common" then ⟨setting.2, options.extras⟩
    else ⟨options.common, Entries.put options.extras setting.1 setting.2⟩) options

/-- The options that a value stands for, with settings laid over it, and whether they are the
options that the value is. -/
def coerce (process : Environment) (value : Value) (settings : Entries Value) :
    Except Fault (Options × Bool) := do
  match value with
  | .null => return (← loadSettings process settings, false)
  | .options options =>
    if settings.isEmpty then return (options, true)
    else return (withSettings options settings, false)
  | value =>
    let entries ← entriesOf value
    let some named := Value.names? entries | throw .nameIsNoText
    return (← loadSettings process (Entries.putAll named settings), false)

/-- The names of the levels of notices. -/
def levels : Entries Nat :=
  [("CRITICAL", 50), ("FATAL", 50), ("ERROR", 40), ("WARN", 30), ("WARNING", 30),
    ("INFO", 20), ("DEBUG", 10), ("NOTSET", 0)]

/-- The level from which on notices are shown: the one that an environment names in any case, or
that of warnings. -/
def noticeLevel (process : Environment) (given : Value) : Except Fault Nat := do
  let environment :=
    match given with
    | .null => ofProcess process
    | environment => environment
  let value ← valueUnder environment levelVariable
  let name := if value.truthy then value.shown else "WARNING"
  let known := levels.find? fun level =>
    Text.isWordInCapitals level.1 (Text.trimBlank name.toList)
  return (known.map Prod.snd).getD 30

end Options

end LineScript
