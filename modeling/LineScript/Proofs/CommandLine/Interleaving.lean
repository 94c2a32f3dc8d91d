import Mathlib.Data.List.TakeWhile
import LineScript.CommandLine.Program
import LineScript.Proofs.Session.Relations

/-!
# Options among the paths

On a command line paths stand together with options, in any order. The options for the state are
taken out first, so they may stand anywhere. The options of the command line itself cut the rest
into rows of paths, and only the first row counts. So a command line means the same as the one with
all options behind the paths, unless a path is *scattered*: it stands behind such an option that
stands behind a path itself (`LineScript.CommandLine.command_ordered_iff`).
-/

namespace LineScript.CommandLine

/-- What is written on a command line: a path, an option of the command line itself, with its
operand as an argument of its own or joined to it, or an entry for the state. -/
inductive Item where
  | path (content : String)
  | noBundled
  | output (format : String)
  | joinedOutput (format : String)
  | entry (name value : String)
deriving DecidableEq, Repr

namespace Item

/-- The arguments that an item is written as. -/
def arguments : Item → List String
  | .path content => [content]
  | .noBundled => ["--no-bundled"]
  | .output format => ["--output", format]
  | .joinedOutput format => ["--output=" ++ format]
  | .entry name value => ["--" ++ name ++ "=" ++ value]

/-- Whether an item is written so that it is understood: a path does not start with a hyphen, a
format is known, and the name of an entry holds no equals sign and is no option of the command
line. -/
def IsProper : Item → Prop
  | .path content => content.toList.head? ≠ some '-'
  | .noBundled => True
  | .output format => format ∈ outputFormats
  | .joinedOutput format => format ∈ outputFormats
  | .entry name _ => '=' ∉ name.toList ∧ "--" ++ name ∉ ownOptions

instance : DecidablePred IsProper
  | .path content => inferInstanceAs (Decidable (content.toList.head? ≠ some '-'))
  | .noBundled => inferInstanceAs (Decidable True)
  | .output format => inferInstanceAs (Decidable (format ∈ outputFormats))
  | .joinedOutput format => inferInstanceAs (Decidable (format ∈ outputFormats))
  | .entry name _ => inferInstanceAs (Decidable ('=' ∉ name.toList ∧ "--" ++ name ∉ ownOptions))

/-- Whether an item is a path. -/
def isPath : Item → Bool
  | .path _ => true
  | _ => false

/-- The path that an item is. -/
def path? : Item → Option String
  | .path content => some content
  | _ => none

/-- The entry for the state that an item is. -/
def entry? : Item → Option (String × Value)
  | .entry name value => some (name, .text value)
  | _ => none

/-- The format that an item sets. -/
def format? : Item → Option String
  | .output format => some format
  | .joinedOutput format => some format
  | _ => none

/-- The piece of a command line that an item is. -/
def piece : Item → ArgumentPiece
  | .entry name value => .entry name (.text value)
  | item => .kept item.arguments

/-- The arguments of an item with what they are, if it is no entry for the state. -/
def kinds : Item → List (String × ArgumentKind)
  | .path content => [(content, .word)]
  | .noBundled => [("--no-bundled", .known .noBundled)]
  | .output format => [("--output", .known .output), (format, .word)]
  | .joinedOutput format => [("--output=" ++ format, .joined .output format)]
  | .entry _ _ => []

end Item

/-- The arguments of a command line. -/
def argumentsOf (items : List Item) : List String :=
  items.flatMap Item.arguments

/-- The items with all options behind the paths. -/
def ordered (items : List Item) : List Item :=
  items.filter Item.isPath ++ items.filter fun item => !item.isPath

/-- The items that are no entries for the state. -/
def withoutEntries (items : List Item) : List Item :=
  items.filter fun item => item.entry?.isNone

/-- The paths among some items. -/
def pathsOf (items : List Item) : List String :=
  items.filterMap Item.path?

/-- The paths in front of the first option. -/
def rowOf (items : List Item) : List String :=
  pathsOf (items.takeWhile Item.isPath)

/-- The items from the first path on. -/
def fromPath (items : List Item) : List Item :=
  items.dropWhile fun item => !item.isPath

/-- The scattered paths of a command line: those that an option of the command line itself cuts
off from the first row of paths. -/
def scattered (items : List Item) : List String :=
  pathsOf ((fromPath (withoutEntries items)).dropWhile Item.isPath)

/-- A request with the options among some items. -/
def Request.hearing (request : Request) (items : List Item) : Request where
  paths := request.paths
  output := (items.filterMap Item.format?).getLast?.or request.output
  noBundled := request.noBundled || items.contains .noBundled

/-- The request that a command line is meant to be. -/
def requestOf (items : List Item) : Request :=
  Request.hearing { paths := pathsOf items } items

/-- The entries for the state on a command line. -/
def entriesOf (items : List Item) : Entries Value :=
  Entries.ofPairs (items.filterMap Item.entry?)

section Splitting

theorem cutAtEquals_of_not_mem {name : List Char} (absent : '=' ∉ name) (value : List Char) :
    cutAtEquals (name ++ '=' :: value) = (name, some value) := by
  induction name with
  | nil => rfl
  | cons c name ih =>
      rw [List.mem_cons, not_or] at absent
      obtain ⟨other, absent⟩ := absent
      rw [List.cons_append, cutAtEquals, if_neg (Ne.symm other), ih absent]

theorem head?_of_head?_cutAtEquals {chars : List Char} {c : Char}
    (starts : (cutAtEquals chars).1.head? = some c) : chars.head? = some c := by
  cases chars with
  | nil => cases starts
  | cons other chars =>
      by_cases same : other = '='
      · rw [cutAtEquals, if_pos same] at starts
        cases starts
      · rw [cutAtEquals, if_neg same] at starts
        exact starts

theorem isKept_of_isProper_path {content : String} (proper : (Item.path content).IsProper) :
    isKept content = true := by
  have short : isLong content.toList = false := by
    unfold isLong
    cases chars : content.toList with
    | nil => rfl
    | cons c rest =>
        have other : c ≠ '-' := by
          intro hyphen
          apply proper
          rw [chars, hyphen]
          rfl
        simp [other]
  simp [isKept, short]

theorem nameAndValue_ne_output_of_isProper_path {content : String}
    (proper : (Item.path content).IsProper) : nameAndValue content ≠ (outputOption, none) := by
  intro same
  have name : (cutAtEquals content.toList).1 = outputOption.toList := by
    have named := congrArg (fun pair => pair.1.toList) same
    simpa [nameAndValue] using named
  apply proper
  apply head?_of_head?_cutAtEquals
  rw [name]
  decide

theorem nameAndValue_entry {name : String} (absent : '=' ∉ name.toList) (value : String) :
    nameAndValue ("--" ++ name ++ "=" ++ value) = ("--" ++ name, some value) := by
  have cut : cutAtEquals ("--" ++ name ++ "=" ++ value).toList =
      (("--" ++ name).toList, some value.toList) := by
    have hyphens : '=' ∉ ("--" ++ name).toList := by
      simp [absent]
    have chars : ("--" ++ name ++ "=" ++ value).toList =
        ("--" ++ name).toList ++ '=' :: value.toList := by
      simp
    rw [chars]
    exact cutAtEquals_of_not_mem hyphens value.toList
  rw [nameAndValue, cut]
  simp only [String.ofList_toList, Option.map_some]

theorem isKept_entry {name value : String} (proper : (Item.entry name value).IsProper) :
    isKept ("--" ++ name ++ "=" ++ value) = false := by
  have long : isLong ("--" ++ name ++ "=" ++ value).toList = true := by
    simp [isLong]
  have other : ("--" ++ name ++ "=" ++ value == "--") = false := by
    refine beq_eq_false_iff_ne.mpr ?_
    intro same
    have equals : '=' ∈ ("--" ++ name ++ "=" ++ value).toList := by
      simp
    rw [same] at equals
    revert equals
    decide
  have unknown : ownOptions.contains ("--" ++ name) = false := by
    simpa using proper.2
  rw [isKept, nameAndValue_entry proper.1, long, other, unknown]
  rfl

theorem eq_json_or_eq_text {format : String} (known : format ∈ outputFormats) :
    format = "json" ∨ format = "text" := by
  simpa [outputFormats] using known

theorem pieces_cons_of_isKept {argument : String} (kept : isKept argument = true)
    (alone : nameAndValue argument ≠ (outputOption, none)) (rest : List String) :
    pieces (argument :: rest) = .kept [argument] :: pieces rest := by
  rw [pieces, if_pos kept]
  intro operand others operates
  exact absurd (beq_iff_eq.mp operates) alone

/-- The arguments of a proper item are one piece of a command line. -/
theorem pieces_arguments {item : Item} (proper : item.IsProper) (rest : List String) :
    pieces (item.arguments ++ rest) = item.piece :: pieces rest := by
  cases item with
  | path content =>
      exact pieces_cons_of_isKept (isKept_of_isProper_path proper)
        (nameAndValue_ne_output_of_isProper_path proper) rest
  | noBundled => exact pieces_cons_of_isKept (by decide) (by decide) rest
  | output format =>
      change pieces ("--output" :: format :: rest) = .kept ["--output", format] :: pieces rest
      rw [pieces, if_pos (by decide)]
      decide
  | joinedOutput format =>
      rcases eq_json_or_eq_text proper with rfl | rfl
      · exact pieces_cons_of_isKept (by decide) (by decide) rest
      · exact pieces_cons_of_isKept (by decide) (by decide) rest
  | entry name value =>
      have kept : ¬isKept ("--" ++ name ++ "=" ++ value) = true := by
        simp [isKept_entry proper]
      change pieces (("--" ++ name ++ "=" ++ value) :: rest) =
        .entry name (.text value) :: pieces rest
      rw [pieces, if_neg kept, nameAndValue_entry proper.1]
      · simp
      · intro operand others operates
        rw [nameAndValue_entry proper.1] at operates
        cases congrArg Prod.snd (beq_iff_eq.mp operates)

theorem pieces_argumentsOf {items : List Item} (proper : ∀ item ∈ items, item.IsProper) :
    pieces (argumentsOf items) = items.map Item.piece := by
  induction items with
  | nil => rfl
  | cons item items ih =>
      obtain ⟨first, others⟩ := List.forall_mem_cons.mp proper
      change pieces (item.arguments ++ argumentsOf items) = _
      rw [pieces_arguments first, ih others, List.map_cons]

/-- The entries for the state are taken out of a command line wherever they stand. -/
theorem splitStateOptions_argumentsOf {items : List Item}
    (proper : ∀ item ∈ items, item.IsProper) :
    splitStateOptions (argumentsOf items) =
      (argumentsOf (withoutEntries items), entriesOf items) := by
  have kept : keptArguments (items.map Item.piece) = argumentsOf (withoutEntries items) := by
    clear proper
    induction items with
    | nil => rfl
    | cons item items ih =>
        cases item <;>
          simp_all [keptArguments, argumentsOf, withoutEntries, Item.piece, Item.entry?]
  have given : stateEntries (items.map Item.piece) = entriesOf items := by
    rw [stateEntries, entriesOf, List.filterMap_map]
    congr 2
    funext item
    cases item <;> rfl
  rw [splitStateOptions, pieces_argumentsOf proper, kept, given]

end Splitting

section Reading

/-- Whether the arguments of an item are read as those of the command line itself. -/
def Item.IsRead (item : Item) : Prop :=
  item.IsProper ∧ item.entry? = none

/-- The end of the reading of a request and of arguments that are not recognized. -/
def endOfReading (request : Request) (extras : List String) : Except UsageFault Reading :=
  if extras.isEmpty then .ok (.request request) else .error (.unrecognized extras)

theorem ne_of_isProper_path {content : String} (proper : (Item.path content).IsProper)
    {hyphenated : String} (starts : hyphenated.toList.head? = some '-') :
    content ≠ hyphenated := by
  rintro rfl
  exact proper starts

theorem kindOf_of_isProper_path {content : String} (proper : (Item.path content).IsProper) :
    kindOf content = .ok .word := by
  have unlisted : spellings.lookup content = none := by
    have hyphenated : ∀ spelling ∈ spellings, spelling.1.toList.head? = some '-' := by decide
    refine List.lookup_eq_none_iff.mpr ?_
    intro spelling listed
    simpa using ne_of_isProper_path proper (hyphenated spelling listed)
  cases chars : content.toList with
  | nil => simp [kindOf, unlisted, chars]
  | cons c rest =>
      have other : c ≠ '-' := by
        rintro rfl
        apply proper
        rw [chars]
        rfl
      simp [kindOf, unlisted, chars, other]

theorem kindsOf_cons {argument : String} {kind : ArgumentKind} (other : argument ≠ "--")
    (kindly : kindOf argument = .ok kind) {rest : List String}
    {kinds : List (String × ArgumentKind)} (others : kindsOf rest = .ok kinds) :
    kindsOf (argument :: rest) = .ok ((argument, kind) :: kinds) := by
  rw [kindsOf, kindly, others]
  · rfl
  · exact other

theorem kindsOf_arguments {item : Item} (isRead : item.IsRead) {rest : List String}
    {kinds : List (String × ArgumentKind)} (others : kindsOf rest = .ok kinds) :
    kindsOf (item.arguments ++ rest) = .ok (item.kinds ++ kinds) := by
  obtain ⟨proper, noEntry⟩ := isRead
  cases item with
  | path content =>
      have other : content ≠ "--" := ne_of_isProper_path proper (by decide)
      exact kindsOf_cons other (kindOf_of_isProper_path proper) others
  | noBundled => exact kindsOf_cons (by decide) rfl others
  | output format =>
      rcases eq_json_or_eq_text proper with rfl | rfl
      · exact kindsOf_cons (by decide) rfl (kindsOf_cons (by decide) rfl others)
      · exact kindsOf_cons (by decide) rfl (kindsOf_cons (by decide) rfl others)
  | joinedOutput format =>
      rcases eq_json_or_eq_text proper with rfl | rfl
      · exact kindsOf_cons (by decide) rfl others
      · exact kindsOf_cons (by decide) rfl others
  | entry name value => cases noEntry

theorem kindsOf_argumentsOf {items : List Item} (areRead : ∀ item ∈ items, item.IsRead) :
    kindsOf (argumentsOf items) = .ok (items.flatMap Item.kinds) := by
  induction items with
  | nil => rfl
  | cons item items ih =>
      obtain ⟨isRead, others⟩ := List.forall_mem_cons.mp areRead
      exact kindsOf_arguments isRead (ih others)

@[simp] theorem Request.hearing_nil (request : Request) : request.hearing [] = request := by
  simp [Request.hearing]

@[simp] theorem Request.hearing_path (request : Request) (content : String) :
    request.hearing [.path content] = request := by
  simp [Request.hearing, Item.format?]

theorem Request.hearing_cons (request : Request) (item : Item) (items : List Item) :
    request.hearing (item :: items) = (request.hearing [item]).hearing items := by
  cases item <;> simp [Request.hearing, Item.format?, List.getLast?_cons]

/-- An option ends the row of words in front of it, and then takes effect. -/
theorem readFrom_option {item : Item} (isRead : item.IsRead) (option : item.isPath = false)
    (read : ReadSoFar) (words : List String) (rest : List (String × ArgumentKind)) :
    readFrom read words (item.kinds ++ rest) =
      readFrom { read.addWords words with
        request := (read.addWords words).request.hearing [item] } [] rest := by
  obtain ⟨proper, noEntry⟩ := isRead
  cases item with
  | path content => cases option
  | noBundled =>
      simp [Item.kinds, readFrom, Request.hearing, Item.format?]
  | output format =>
      have known : format ∈ outputFormats := proper
      simp [Item.kinds, readFrom, Request.hearing, Item.format?, ReadSoFar.setOutput, known]
      rfl
  | joinedOutput format =>
      have known : format ∈ outputFormats := proper
      simp [Item.kinds, readFrom, Request.hearing, Item.format?, ReadSoFar.setOutput, known]
      rfl
  | entry name value => cases noEntry

theorem addWords_nil (read : ReadSoFar) : read.addWords [] = read := rfl

theorem addWords_behind (request : Request) (extras words : List String) :
    ReadSoFar.addWords { request := request, hasPaths := true, extras := extras } words =
      { request := request, hasPaths := true, extras := extras ++ words } := by
  cases words <;> simp [ReadSoFar.addWords]

theorem addWords_row (request : Request) {words : List String} (row : words ≠ [])
    (plain : "--" ∉ words) :
    ReadSoFar.addWords { request := request } words =
      { request := { request with paths := words }, hasPaths := true } := by
  simp [ReadSoFar.addWords, row, List.erase_of_not_mem plain]

theorem exists_of_isPath {item : Item} (path : item.isPath = true) :
    ∃ content, item = .path content := by
  cases item with
  | path content => exact ⟨content, rfl⟩
  | _ => cases path

theorem path?_of_not_isPath {item : Item} (option : item.isPath = false) : item.path? = none := by
  cases item with
  | path content => cases option
  | _ => rfl

/-- Behind the first row of words no path is recognized. -/
theorem readFrom_behind {items : List Item} (areRead : ∀ item ∈ items, item.IsRead)
    (request : Request) (extras words : List String) :
    readFrom { request := request, hasPaths := true, extras := extras } words
        (items.flatMap Item.kinds) =
      endOfReading (request.hearing items) (extras ++ words ++ pathsOf items) := by
  induction items generalizing request extras words with
  | nil => simp [readFrom, addWords_behind, endOfReading, pathsOf]
  | cons item items ih =>
      obtain ⟨isRead, others⟩ := List.forall_mem_cons.mp areRead
      rw [Request.hearing_cons]
      cases path : item.isPath with
      | true =>
          obtain ⟨content, rfl⟩ := exists_of_isPath path
          have first : pathsOf (.path content :: items) = content :: pathsOf items := rfl
          rw [Request.hearing_path, first, List.flatMap_cons, Item.kinds, List.singleton_append,
            readFrom, ih others, ← List.append_assoc extras,
            List.append_cons _ content (pathsOf items)]
      | false =>
          have first : pathsOf (item :: items) = pathsOf items := by
            simp [pathsOf, path?_of_not_isPath path]
          rw [first, List.flatMap_cons, readFrom_option isRead path, addWords_behind, ih others,
            List.append_nil]

/-- The first row of words are the paths. -/
theorem readFrom_row {items : List Item} (areRead : ∀ item ∈ items, item.IsRead)
    (request : Request) {words : List String} (row : words ≠ []) (plain : "--" ∉ words) :
    readFrom { request := request } words (items.flatMap Item.kinds) =
      endOfReading (Request.hearing { request with paths := words ++ rowOf items } items)
        (pathsOf (items.dropWhile Item.isPath)) := by
  induction items generalizing words with
  | nil => simp [readFrom, addWords_row request row plain, endOfReading, pathsOf, rowOf]
  | cons item items ih =>
      obtain ⟨isRead, others⟩ := List.forall_mem_cons.mp areRead
      rw [Request.hearing_cons]
      cases path : item.isPath with
      | true =>
          obtain ⟨content, rfl⟩ := exists_of_isPath path
          have other : "--" ≠ content := (ne_of_isProper_path isRead.1 (by decide)).symm
          have longer : "--" ∉ words ++ [content] := by
            simp [plain, other]
          have first : rowOf (.path content :: items) = content :: rowOf items := rfl
          rw [Request.hearing_path, first, List.flatMap_cons, Item.kinds, List.singleton_append,
            readFrom, ih others (List.concat_ne_nil content words) longer,
            List.append_cons words content (rowOf items), List.dropWhile_cons_of_pos path]
      | false =>
          have first : rowOf (item :: items) = [] := by
            simp [rowOf, pathsOf, path]
          have behind : pathsOf ((item :: items).dropWhile Item.isPath) = pathsOf items := by
            simp [pathsOf, path, path?_of_not_isPath path]
          rw [first, behind, List.flatMap_cons, readFrom_option isRead path,
            addWords_row request row plain, readFrom_behind others, List.append_nil,
            List.append_nil, List.nil_append]

theorem withoutEntries_areRead {items : List Item} (proper : ∀ item ∈ items, item.IsProper) :
    ∀ item ∈ withoutEntries items, item.IsRead := by
  intro item member
  obtain ⟨given, noEntry⟩ := List.mem_filter.mp member
  exact ⟨proper item given, Option.isNone_iff_eq_none.mp noEntry⟩

/-- The options in front of the first path take effect, and leave the paths to be read. -/
theorem readFrom_start {items : List Item} (areRead : ∀ item ∈ items, item.IsRead)
    {request : Request} (fresh : request.paths = []) :
    readFrom { request := request } [] (items.flatMap Item.kinds) =
      endOfReading (Request.hearing { request with paths := rowOf (fromPath items) } items)
        (pathsOf ((fromPath items).dropWhile Item.isPath)) := by
  induction items generalizing request with
  | nil => simp [readFrom, ReadSoFar.addWords, endOfReading, pathsOf, rowOf, fromPath, ← fresh]
  | cons item items ih =>
      obtain ⟨isRead, others⟩ := List.forall_mem_cons.mp areRead
      cases path : item.isPath with
      | true =>
          obtain ⟨content, rfl⟩ := exists_of_isPath path
          have plain : "--" ∉ [content] := by
            simp [(ne_of_isProper_path isRead.1 (by decide : "--".toList.head? = some '-')).symm]
          have start : fromPath (.path content :: items) = .path content :: items := rfl
          have first : rowOf (.path content :: items) = [content] ++ rowOf items := rfl
          rw [start, first, Request.hearing_cons, Request.hearing_path, List.flatMap_cons,
            Item.kinds, List.singleton_append, readFrom, List.nil_append,
            readFrom_row others request (List.cons_ne_nil content []) plain,
            List.dropWhile_cons_of_pos path]
      | false =>
          have later : fromPath (item :: items) = fromPath items := by
            simp [fromPath, path]
          have still : (request.hearing [item]).paths = [] := fresh
          rw [later, Request.hearing_cons, List.flatMap_cons, readFrom_option isRead path,
            addWords_nil, ih others still]
          rfl

/-- What the options among some items set does not depend on the entries for the state. -/
theorem hearing_withoutEntries (request : Request) (items : List Item) :
    request.hearing (withoutEntries items) = request.hearing items := by
  induction items generalizing request with
  | nil => rfl
  | cons item items ih =>
      cases item with
      | entry name value =>
          have silent : request.hearing [.entry name value] = request := by
            simp [Request.hearing, Item.format?]
          rw [Request.hearing_cons, silent]
          exact ih request
      | _ =>
          rw [Request.hearing_cons request, ← ih]
          exact Request.hearing_cons request _ _

/-- A command line without its entries for the state is read as the request that it is meant to be,
if no path is scattered, and not recognized otherwise. -/
theorem readArguments_argumentsOf {items : List Item} (proper : ∀ item ∈ items, item.IsProper) :
    readArguments (argumentsOf (withoutEntries items)) =
      endOfReading (Request.hearing { paths := rowOf (fromPath (withoutEntries items)) } items)
        (scattered items) := by
  have areRead := withoutEntries_areRead proper
  have kinds : kindsOf (argumentsOf (withoutEntries items)) =
      .ok ((withoutEntries items).flatMap Item.kinds) := kindsOf_argumentsOf areRead
  have start : readFrom {} [] _ = _ := readFrom_start areRead rfl
  rw [hearing_withoutEntries] at start
  rw [readArguments, kinds]
  exact start

/-- The paths of a command line are those of its first row and the scattered ones. -/
theorem pathsOf_eq_append (items : List Item) :
    pathsOf items = rowOf (fromPath (withoutEntries items)) ++ scattered items := by
  have paths : pathsOf items = pathsOf (withoutEntries items) := by
    rw [pathsOf, pathsOf, withoutEntries, List.filterMap_filter]
    congr 1
    funext item
    cases item <;> rfl
  have behind (items : List Item) : pathsOf items = pathsOf (fromPath items) := by
    induction items with
    | nil => rfl
    | cons item items ih =>
        cases path : item.isPath with
        | true => simp [fromPath, path]
        | false =>
            have later : fromPath (item :: items) = fromPath items := by
              simp [fromPath, path]
            rw [later, ← ih]
            simp [pathsOf, path?_of_not_isPath path]
  rw [paths, behind, rowOf, scattered, pathsOf, pathsOf, pathsOf, ← List.filterMap_append,
    List.takeWhile_append_dropWhile]

end Reading

section Ordering

theorem ordered_proper {items : List Item} (proper : ∀ item ∈ items, item.IsProper) :
    ∀ item ∈ ordered items, item.IsProper := by
  intro item member
  rcases List.mem_append.mp member with path | option
  · exact proper item (List.mem_filter.mp path).1
  · exact proper item (List.mem_filter.mp option).1

/-- What the options say is the same behind the paths. -/
theorem filterMap_ordered {α : Type} (said : Item → Option α)
    (silent : ∀ content, said (.path content) = none) (items : List Item) :
    (ordered items).filterMap said = items.filterMap said := by
  have paths : (items.filter Item.isPath).filterMap said = [] := by
    refine List.filterMap_eq_nil_iff.mpr ?_
    intro item member
    obtain ⟨content, rfl⟩ := exists_of_isPath (List.mem_filter.mp member).2
    exact silent content
  rw [ordered, List.filterMap_append, paths, List.nil_append, List.filterMap_filter]
  congr 1
  funext item
  cases path : item.isPath with
  | false => rfl
  | true =>
      obtain ⟨content, rfl⟩ := exists_of_isPath path
      exact (silent content).symm

theorem pathsOf_options (items : List Item) :
    pathsOf (items.filter fun item => !item.isPath) = [] := by
  refine List.filterMap_eq_nil_iff.mpr ?_
  intro item member
  apply path?_of_not_isPath
  simpa using (List.mem_filter.mp member).2

theorem pathsOf_ordered (items : List Item) : pathsOf (ordered items) = pathsOf items := by
  have options := pathsOf_options items
  rw [pathsOf] at options
  rw [pathsOf, ordered, List.filterMap_append, options, List.append_nil, List.filterMap_filter]
  congr 1
  funext item
  cases item <;> rfl

theorem requestOf_ordered (items : List Item) : requestOf (ordered items) = requestOf items := by
  have bundled : (ordered items).contains .noBundled = items.contains .noBundled := by
    rw [Bool.eq_iff_iff]
    simp [ordered, Item.isPath]
  simp only [requestOf, Request.hearing, pathsOf_ordered, bundled,
    filterMap_ordered Item.format? fun _ => rfl]

theorem entriesOf_ordered (items : List Item) : entriesOf (ordered items) = entriesOf items := by
  rw [entriesOf, entriesOf, filterMap_ordered Item.entry? fun _ => rfl]

theorem withoutEntries_ordered (items : List Item) :
    withoutEntries (ordered items) = ordered (withoutEntries items) := by
  simp only [withoutEntries, ordered, List.filter_append, List.filter_filter, Bool.and_comm]

/-- Behind the paths, the options scatter none of them. -/
theorem scattered_ordered (items : List Item) : scattered (ordered items) = [] := by
  rw [scattered, withoutEntries_ordered]
  generalize withoutEntries items = items
  have unread {others : List Item}
      (within : others.Sublist (items.filter fun item => !item.isPath)) : pathsOf others = [] := by
    have fewer : (pathsOf others).Sublist (pathsOf _) := within.filterMap Item.path?
    rw [pathsOf_options] at fewer
    exact List.sublist_nil.mp fewer
  rcases paths : items.filter Item.isPath with _ | ⟨path, others⟩
  · have start : ordered items = items.filter fun item => !item.isPath := by
      rw [ordered, paths, List.nil_append]
    rw [start]
    exact unread ((List.dropWhile_sublist _).trans (List.dropWhile_sublist _))
  · have arePaths : ∀ item ∈ path :: others, item.isPath = true := by
      intro item member
      rw [← paths] at member
      exact (List.mem_filter.mp member).2
    have start : fromPath (ordered items) = ordered items := by
      simp [fromPath, ordered, paths, arePaths path List.mem_cons_self]
    have behind : (path :: others).dropWhile Item.isPath = [] :=
      List.dropWhile_eq_nil_iff.mpr arePaths
    rw [start, ordered, paths, List.dropWhile_append, behind, if_pos List.isEmpty_nil]
    exact unread (List.dropWhile_sublist _)

end Ordering

section Carrying

open Library (Memory)

variable (host : Host Memory) (fuel : Nat) (environment : Environment) (files : Files)
  (runtime : String)

/-- Whether a procedure does not end with a report about a mistake. -/
def IsUnderstood (procedure : Procedure Memory Ending) : Prop :=
  ∀ start report last, procedure.run start ≠ (.ok (.misused report), last)

theorem isUnderstood_bind {α : Type} {first : Procedure Memory α}
    {next : α → Procedure Memory Ending} (rest : ∀ value, IsUnderstood (next value)) :
    IsUnderstood (first >>= next) := by
  intro start report last ended
  obtain ⟨value, between, _, after⟩ := exists_of_run_bind ended
  exact rest value between report last after

theorem isUnderstood_refused (message : String) :
    IsUnderstood (pure (.refused message)) := by
  intro start report last ended
  cases ended

theorem isUnderstood_finished : IsUnderstood (pure .finished) := by
  intro start report last ended
  cases ended

theorem isUnderstood_throw (failure : Failure) : IsUnderstood (throw failure) := by
  intro start report last ended
  cases ended

/-- A request that is served is no mistake in the arguments. -/
theorem isUnderstood_serve (request : Request) (given : Entries Value) :
    IsUnderstood (serve host fuel files request given) := by
  have prepared {first : Procedure Memory Unit} {serving : Unit → Procedure Memory Ending}
      (understood : ∀ value, IsUnderstood (serving value)) :
      IsUnderstood (if !request.noBundled then first >>= serving else serving ()) := by
    split
    · exact isUnderstood_bind understood
    · exact understood ()
  unfold serve
  refine prepared fun _ => isUnderstood_bind fun unregistered => ?_
  split
  · exact isUnderstood_refused _
  split
  · exact isUnderstood_throw _
  · exact isUnderstood_refused _
  refine isUnderstood_bind fun contents => ?_
  refine isUnderstood_bind fun _ => isUnderstood_bind fun ran => ?_
  split
  · exact isUnderstood_refused _
  · exact isUnderstood_throw _
  · exact isUnderstood_bind fun _ => isUnderstood_finished

/-- A command line with no scattered path is read as the request that it is meant to be. -/
theorem readArguments_of_not_scattered {items : List Item}
    (proper : ∀ item ∈ items, item.IsProper) (together : scattered items = []) :
    readArguments (argumentsOf (withoutEntries items)) = .ok (.request (requestOf items)) := by
  have paths := pathsOf_eq_append items
  rw [together, List.append_nil] at paths
  rw [readArguments_argumentsOf proper, together, endOfReading, if_pos List.isEmpty_nil, requestOf,
    paths]

theorem readArguments_ordered {items : List Item} (proper : ∀ item ∈ items, item.IsProper) :
    readArguments (argumentsOf (withoutEntries (ordered items))) =
      .ok (.request (requestOf items)) := by
  rw [readArguments_of_not_scattered (ordered_proper proper) (scattered_ordered items),
    requestOf_ordered]

theorem readArguments_of_scattered {items : List Item}
    (proper : ∀ item ∈ items, item.IsProper) (apart : scattered items ≠ []) :
    readArguments (argumentsOf (withoutEntries items)) =
      .error (.unrecognized (scattered items)) := by
  have filled : ¬(scattered items).isEmpty = true := by
    rwa [List.isEmpty_iff]
  rw [readArguments_argumentsOf proper, endOfReading, if_neg filled]

variable {host fuel environment files runtime}

theorem command_congr {arguments others : List String}
    (given : (splitStateOptions arguments).2 = (splitStateOptions others).2)
    (read : readArguments (splitStateOptions arguments).1 =
      readArguments (splitStateOptions others).1) :
    command host fuel ⟨arguments, environment, files, runtime⟩ =
      command host fuel ⟨others, environment, files, runtime⟩ := by
  simp only [command, given, read]

theorem command_of_error {arguments : List String} {fault : UsageFault}
    (mistaken : readArguments (splitStateOptions arguments).1 = .error fault) :
    command host fuel ⟨arguments, environment, files, runtime⟩ = pure (.misused fault.report) := by
  simp only [command, mistaken]

theorem isUnderstood_command {arguments : List String} {request : Request}
    (read : readArguments (splitStateOptions arguments).1 = .ok (.request request)) :
    IsUnderstood (command host fuel ⟨arguments, environment, files, runtime⟩) := by
  simp only [command, read]
  split
  · exact isUnderstood_refused _
  · exact isUnderstood_throw _
  · exact isUnderstood_bind fun _ => isUnderstood_serve host fuel files request _

/-- Scattered paths are reported, and nothing else happens. -/
theorem command_of_scattered {items : List Item} (proper : ∀ item ∈ items, item.IsProper)
    (apart : scattered items ≠ []) :
    command host fuel ⟨argumentsOf items, environment, files, runtime⟩ =
      pure (.misused (UsageFault.unrecognized (scattered items)).report) := by
  apply command_of_error
  rw [splitStateOptions_argumentsOf proper, readArguments_of_scattered proper apart]

/-- **Options among the paths.** A command line comes to the same as the one with its options
behind its paths exactly when none of its paths is scattered. Otherwise the scattered paths are
reported, and nothing else happens. -/
theorem command_ordered_iff (host : Host Memory) (fuel : Nat) (environment : Environment)
    (files : Files) (runtime : String) (start : Session Memory) {items : List Item}
    (proper : ∀ item ∈ items, item.IsProper) :
    ((command host fuel ⟨argumentsOf items, environment, files, runtime⟩).run start =
        (command host fuel ⟨argumentsOf (ordered items), environment, files, runtime⟩).run start ↔
      scattered items = []) ∧
    (scattered items ≠ [] →
      (command host fuel ⟨argumentsOf items, environment, files, runtime⟩).run start =
        (.ok (.misused (UsageFault.unrecognized (scattered items)).report), start)) := by
  have readOrdered : readArguments (splitStateOptions (argumentsOf (ordered items))).1 =
      .ok (.request (requestOf items)) := by
    rw [splitStateOptions_argumentsOf (ordered_proper proper), readArguments_ordered proper]
  refine ⟨⟨?_, ?_⟩, ?_⟩
  · intro same
    by_contra apart
    rw [command_of_scattered proper apart] at same
    exact isUnderstood_command readOrdered start _ start same.symm
  · intro together
    have given : (splitStateOptions (argumentsOf items)).2 =
        (splitStateOptions (argumentsOf (ordered items))).2 := by
      rw [splitStateOptions_argumentsOf proper,
        splitStateOptions_argumentsOf (ordered_proper proper), entriesOf_ordered]
    have read : readArguments (splitStateOptions (argumentsOf items)).1 =
        readArguments (splitStateOptions (argumentsOf (ordered items))).1 := by
      rw [readOrdered, splitStateOptions_argumentsOf proper,
        readArguments_of_not_scattered proper together]
    rw [command_congr given read]
  · intro apart
    rw [command_of_scattered proper apart, run_pure]

/-- Two scripts without lines. -/
def twoScripts : Files where
  directory := ⟨["work"]⟩
  contents := [(⟨["work", "a.txt"]⟩, .bytes ByteArray.empty),
    (⟨["work", "b.txt"]⟩, .bytes ByteArray.empty)]

/-- A session before anything has happened. -/
def nothingDone : Session Memory where
  state := []
  world := { engine := Engine.ofOptions ⟨.bool true, []⟩, notices := [], memory := {} }

/-- An entry for the state between the paths, and an option in front of them. -/
def interleaved : List Item :=
  [.output "json", .path "a.txt", .entry "seed" "1", .path "b.txt"]

theorem command_ordered_iff_interleaved :
    (∀ item ∈ interleaved, item.IsProper) ∧
      (command (Library.host 40 1) 40 ⟨argumentsOf interleaved, [], twoScripts, "3.11"⟩).run
          nothingDone =
        (command (Library.host 40 1) 40
          ⟨argumentsOf (ordered interleaved), [], twoScripts, "3.11"⟩).run nothingDone :=
  have proper : ∀ item ∈ interleaved, item.IsProper := by decide
  have same :=
    (command_ordered_iff (Library.host 40 1) 40 [] twoScripts "3.11" nothingDone proper).1
  ⟨proper, same.mpr (by decide)⟩

/-- An option of the command line itself between the paths. -/
def cutInTwo : List Item :=
  [.path "a.txt", .output "json", .path "b.txt"]

theorem command_cutInTwo :
    (∀ item ∈ cutInTwo, item.IsProper) ∧
      ((command (Library.host 8 1) 8 ⟨argumentsOf cutInTwo, [], twoScripts, "3.11"⟩).run
        nothingDone).1 = .ok (.misused (UsageFault.unrecognized ["b.txt"]).report) ∧
      ((command (Library.host 8 1) 8
        ⟨argumentsOf (ordered cutInTwo), [], twoScripts, "3.11"⟩).run nothingDone).1 =
          .ok .finished := by
  refine ⟨by decide, ?_, by rfl⟩
  rw [command_of_scattered (by decide) (by decide)]
  rfl

end Carrying

end LineScript.CommandLine
