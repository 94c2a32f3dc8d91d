import LineScript.Proofs.CommandLine.Seeding

/-!
# What leaves the command

The command ends with a success, with a report about its arguments, or with a message that starts
with `ERROR: `. Only a few failures are not caught: an entry named `env`, a script or a console that
cannot be read, an abort, and a final state that cannot be rendered. These are all
(`LineScript.CommandLine.command_reports_iff`). A state cannot be rendered if it is to be a document
and a mapping in it has a key that cannot be written as a name
(`LineScript.CommandLine.renderState_fails_iff`).
-/

namespace LineScript

section Documents

/-- Whether a key of a mapping can be written as a name. -/
def Value.isName : Value → Bool
  | .text _ => true
  | .null => true
  | .bool _ => true
  | .int _ => true
  | .float _ => true
  | _ => false

mutual

/-- Whether all keys of the mappings in a value can be written as names. -/
def Value.hasNames : Value → Bool
  | .list items => itemsHaveNames items
  | .tuple items => itemsHaveNames items
  | .dict entries => entriesHaveNames entries
  | _ => true

/-- Whether all keys of the mappings in some values can be written as names. -/
def itemsHaveNames : List Value → Bool
  | [] => true
  | item :: rest => item.hasNames && itemsHaveNames rest

/-- Whether all keys of some entries, and those of the mappings in them, can be written as names. -/
def entriesHaveNames : List (Value × Value) → Bool
  | [] => true
  | (key, item) :: rest => key.isName && item.hasNames && entriesHaveNames rest

end

theorem keyName_isOk (key : Value) : (entriesToJson.keyName key).isOk = key.isName := by
  cases key <;> rfl

mutual

/-- A value is a document if the keys of its mappings can be written as names. -/
theorem toJson_isOk (value : Value) : value.toJson.isOk = value.hasNames := by
  cases value with
  | list items =>
      have all := itemsToJson_isOk items
      rw [Value.toJson, Value.hasNames, ← all]
      cases itemsToJson items <;> rfl
  | tuple items =>
      have all := itemsToJson_isOk items
      rw [Value.toJson, Value.hasNames, ← all]
      cases itemsToJson items <;> rfl
  | dict entries =>
      have all := entriesToJson_isOk entries
      rw [Value.toJson, Value.hasNames, ← all]
      cases entriesToJson entries <;> rfl
  | _ => rfl

theorem itemsToJson_isOk (items : List Value) :
    (itemsToJson items).isOk = itemsHaveNames items := by
  cases items with
  | nil => rfl
  | cons item rest =>
      have own := toJson_isOk item
      have others := itemsToJson_isOk rest
      rw [itemsToJson, itemsHaveNames, ← own, ← others]
      cases item.toJson with
      | error fault => rfl
      | ok document => cases itemsToJson rest <;> rfl

theorem entriesToJson_isOk (entries : List (Value × Value)) :
    (entriesToJson entries).isOk = entriesHaveNames entries := by
  match entries with
  | [] => rfl
  | (key, item) :: rest =>
      have named := keyName_isOk key
      have own := toJson_isOk item
      have others := entriesToJson_isOk rest
      rw [entriesToJson, entriesHaveNames, ← named, ← own, ← others]
      cases entriesToJson.keyName key with
      | error fault => rfl
      | ok name =>
          cases item.toJson with
          | error fault => rfl
          | ok document => cases entriesToJson rest <;> rfl

end

namespace CommandLine

/-- A state cannot be rendered exactly if it is to be a document and a mapping in it has a key that
cannot be written as a name. -/
theorem renderState_fails_iff (state : State) (format : String) :
    (∃ fault, renderState state format = .error fault) ↔
      format = "json" ∧ ∃ entry ∈ state, entry.2.hasNames = false := by
  unfold renderState
  by_cases document : format = "json"
  · have named : (entriesToJson (state.map fun entry => (.text entry.1, entry.2))).isOk =
        state.all fun entry => entry.2.hasNames := by
      rw [entriesToJson_isOk]
      induction state with
      | nil => rfl
      | cons entry rest ih =>
          rw [List.map_cons, entriesHaveNames, ih]
          rfl
    rw [if_pos document, Value.ofEntries, Value.toJson]
    cases made : entriesToJson (state.map fun entry => (.text entry.1, entry.2)) with
    | error fault =>
        rw [made] at named
        obtain ⟨entry, member, unnamed⟩ := List.all_eq_false.mp named.symm
        exact ⟨fun _ => ⟨document, entry, member, by simpa using unnamed⟩, fun _ => ⟨fault, rfl⟩⟩
    | ok members =>
        rw [made] at named
        constructor
        · rintro ⟨fault, ⟨⟩⟩
        · rintro ⟨-, entry, member, unnamed⟩
          have all := List.all_eq_true.mp named.symm entry member
          rw [unnamed] at all
          cases all
  · rw [if_neg document]
    constructor
    · rintro ⟨fault, ⟨⟩⟩
    · intro both
      exact absurd both.1 document

end CommandLine

end Documents

namespace Options

/-- What is no truth value is an invalid `common`. -/
theorem exists_of_truthOf_error {value : Value} {fault : Fault}
    (failed : truthOf value = .error fault) : ∃ problem, fault = .invalidCommon problem := by
  have ofInt {least i : Int} (failed : truthOfInt least i = .error fault) :
      ∃ problem, fault = .invalidCommon problem := by
    unfold truthOfInt at failed
    split at failed
    · cases failed
      exact ⟨_, rfl⟩
    split at failed
    · cases failed
    split at failed
    · cases failed
    · cases failed
      exact ⟨_, rfl⟩
  cases value with
  | bool b => cases failed
  | int i => exact ofInt failed
  | float x =>
      rw [truthOf] at failed
      split at failed
      · exact ofInt failed
      · cases failed
        exact ⟨_, rfl⟩
  | text content =>
      rw [truthOf] at failed
      split at failed
      · cases failed
      split at failed
      · cases failed
      · cases failed
        exact ⟨_, rfl⟩
  | _ =>
      cases failed
      exact ⟨_, rfl⟩

end Options

namespace CommandLine

open Library (Memory)

/-- Whether an ending is a success, a report about the arguments, or a message about an error. -/
def Ending.IsReport : Ending → Prop
  | .finished => True
  | .misused report => ∃ mistake : UsageFault, report = mistake.report
  | .refused message => ∃ cause, message = "ERROR: " ++ cause

/-- The failures that leave the command, with the session that they leave: an entry named `env`, a
script or the console that cannot be read, an abort of a script, and a final state that is to be
rendered as a document, but holds a mapping with a key that cannot be written as a name. -/
inductive Escapes (host : Host Memory) (fuel : Nat) (invocation : Invocation)
    (start : Session Memory) : Failure → Session Memory → Prop where
  | environment {request : Request} {value : Value} :
      invocation.reading = .ok (.request request) → invocation.given.get? "env" = some value →
      Escapes host fuel invocation start (.fault (.noAttribute value.qualifiedKind "get")) start
  | unread {request : Request} {options : Options} {fault : Fault} {last : World Memory} :
      invocation.reading = .ok (.request request) → invocation.options = .ok options →
      Loading invocation.files request (equipped start.world options) (.failed fault) last →
      Escapes host fuel invocation start (.fault fault) (start.inWorld last)
  | aborted {request : Request} {options : Options} {front behind : List String}
      {content : String} {ready : World Memory} {next last : Session Memory} {failure : Failure} :
      invocation.reading = .ok (.request request) → invocation.options = .ok options →
      Loading invocation.files request (equipped start.world options)
        (.scripts (front ++ content :: behind)) ready →
      Runs host fuel front ⟨invocation.given, ready⟩ next →
      (Run.script host fuel (.text content)).run next = (.error failure, last) →
      (∀ fault, failure ≠ .fault fault) → Escapes host fuel invocation start failure last
  | unrendered {request : Request} {options : Options} {contents : List String}
      {ready : World Memory} {last : Session Memory} {entry : String × Value} {fault : Fault} :
      invocation.reading = .ok (.request request) → invocation.options = .ok options →
      Loading invocation.files request (equipped start.world options) (.scripts contents) ready →
      Runs host fuel contents ⟨invocation.given, ready⟩ last →
      request.output = some "json" →
      entry ∈ last.state.visible invocation.given.names → entry.2.hasNames = false →
      renderState (last.state.visible invocation.given.names) "json" = .error fault →
      Escapes host fuel invocation start (.fault fault) last

variable {host : Host Memory} {fuel : Nat} {invocation : Invocation} {request : Request}
  {start last : Session Memory}

theorem writeAndFinish_run_of_none {given : Entries Value} (silent : request.output = none) :
    (writeAndFinish request given).run last = (.ok .finished, last) := by
  unfold writeAndFinish
  rw [silent]
  rfl

theorem writeAndFinish_run_of_error {given : Entries Value} {format : String} {fault : Fault}
    (asked : request.output = some format)
    (failed : renderState (last.state.visible given.names) format = .error fault) :
    (writeAndFinish request given).run last = (.error (.fault fault), last) := by
  unfold writeAndFinish
  rw [asked]
  refine run_bind_of_error ?_
  rw [writeState, run_bind_of_ok (Procedure.run_state last), failed]
  rfl

theorem exists_of_writeAndFinish {given : Entries Value} {format rendered : String}
    (asked : request.output = some format)
    (made : renderState (last.state.visible given.names) format = .ok rendered) :
    ∃ final, (writeAndFinish request given).run last = (.ok .finished, final) := by
  have written : ∃ final,
      (writeState (some format) given.names).run last = (.ok (), final) := by
    rw [writeState, run_bind_of_ok (Procedure.run_state last), made]
    change ∃ final, (if (!rendered.isEmpty) = true then Query.lift (Memory.write rendered)
      else pure () : Procedure Memory Unit).run last = (.ok (), final)
    split <;> exact ⟨_, rfl⟩
  obtain ⟨final, written⟩ := written
  rw [← asked] at written
  exact ⟨final, run_bind_of_ok written⟩

/-- What escapes leaves the command. -/
theorem Escapes.command_run {failure : Failure}
    (escapes : Escapes host fuel invocation start failure last) :
    (command host fuel invocation).run start = (.error failure, last) := by
  cases escapes with
  | environment reading present =>
      exact command_run_of_fault reading
        (Options.loadSettings_of_some present (given_plain invocation present))
  | unread reading valid loading => exact loading.command_run reading valid
  | aborted reading valid loading runs failed other =>
      rw [loading.command_run reading valid]
      refine (conclude_of_fails runs failed _).trans ?_
      cases failure with
      | fault fault => exact absurd rfl (other fault)
      | _ => rfl
  | unrendered reading valid loading runs asked _ _ failed =>
      rw [loading.command_run reading valid]
      exact (conclude_of_runs runs).trans (writeAndFinish_run_of_error asked failed)

/-- Whether the command ends with a report, or fails with something that escapes. -/
def ReportsOrEscapes (host : Host Memory) (fuel : Nat) (invocation : Invocation)
    (start : Session Memory) : Prop :=
  (∃ ending last, (command host fuel invocation).run start = (.ok ending, last) ∧
    ending.IsReport) ∨
  ∃ failure last, Escapes host fuel invocation start failure last

/-- Options that cannot be loaded are reported, unless an entry is named `env`. -/
theorem reportsOrEscapes_of_fault {fault : Fault}
    (reading : invocation.reading = .ok (.request request))
    (failed : invocation.options = .error fault) :
    ReportsOrEscapes host fuel invocation start := by
  cases present : invocation.given.get? "env" with
  | some value => exact Or.inr ⟨_, start, .environment reading present⟩
  | none =>
      obtain ⟨fallback, settings⟩ :=
        @Options.loadSettings_of_none invocation.environment _ (given_nodup invocation) present
      have refused := settings.symm.trans failed
      obtain ⟨problem, rfl⟩ : ∃ problem, fault = .invalidCommon problem := by
        cases checked : Options.truthOf
            ((invocation.given.get? "common").getD (.bool fallback)) with
        | ok common =>
            rw [checked] at refused
            cases refused
        | error cause =>
            rw [checked] at refused
            cases refused
            exact Options.exists_of_truthOf_error checked
      exact Or.inl ⟨_, start, command_run_of_fault reading failed, _, rfl⟩

/-- Scripts that have been loaded end with a report, unless one of them is aborted or the final
state cannot be rendered. -/
theorem reportsOrEscapes_of_scripts {options : Options} {contents : List String}
    {ready : World Memory} (reading : invocation.reading = .ok (.request request))
    (valid : invocation.options = .ok options)
    (loading : Loading invocation.files request (equipped start.world options)
      (.scripts contents) ready) : ReportsOrEscapes host fuel invocation start := by
  have carried := @Loading.command_run _ _ _ host fuel start _ _ reading valid loading
  rcases conclude_endsInTurn host fuel request invocation.given contents
      ⟨invocation.given, ready⟩ with
    ⟨last, runs, ended⟩ | ⟨front, content, behind, next, failure, last, rfl, runs, failed, ended⟩
  · have ran := carried.trans ended
    cases asked : request.output with
    | none => exact Or.inl ⟨_, _, ran.trans (writeAndFinish_run_of_none asked), trivial⟩
    | some format =>
        cases made : renderState (last.state.visible invocation.given.names) format with
        | error fault =>
            obtain ⟨rfl, entry, member, unnamed⟩ := (renderState_fails_iff _ _).mp ⟨fault, made⟩
            exact Or.inr ⟨_, _, .unrendered reading valid loading runs asked member unnamed made⟩
        | ok rendered =>
            obtain ⟨final, written⟩ := exists_of_writeAndFinish asked made
            exact Or.inl ⟨_, final, ran.trans written, trivial⟩
  · have ran := carried.trans ended
    cases failure with
    | fault fault => exact Or.inl ⟨_, last, ran, _, rfl⟩
    | abort kind message =>
        exact Or.inr ⟨_, _, .aborted reading valid loading runs failed (by rintro _ ⟨⟩)⟩
    | outOfFuel =>
        exact Or.inr ⟨_, _, .aborted reading valid loading runs failed (by rintro _ ⟨⟩)⟩

theorem reportsOrEscapes (host : Host Memory) (fuel : Nat) (invocation : Invocation)
    (start : Session Memory) : ReportsOrEscapes host fuel invocation start := by
  cases reading : invocation.reading with
  | error mistake => exact Or.inl ⟨_, start, command_run_of_mistake reading, mistake, rfl⟩
  | ok read =>
      cases read with
      | help =>
          obtain ⟨last, shown⟩ := @command_run_of_help _ host fuel start reading
          exact Or.inl ⟨_, last, shown, trivial⟩
      | version =>
          obtain ⟨last, shown⟩ := @command_run_of_version _ host fuel start reading
          exact Or.inl ⟨_, last, shown, trivial⟩
      | request request =>
          cases valid : invocation.options with
          | error fault => exact reportsOrEscapes_of_fault reading valid
          | ok options =>
              obtain ⟨loaded, ready, loading⟩ :=
                exists_loading invocation.files request (equipped start.world options)
              cases loaded with
              | refused message =>
                  exact Or.inl ⟨_, _, loading.command_run reading valid, _, rfl⟩
              | failed fault => exact Or.inr ⟨_, _, .unread reading valid loading⟩
              | scripts contents => exact reportsOrEscapes_of_scripts reading valid loading

/-- **Failures are reported.** Whatever the arguments, the files and the console are, whatever the
declared functions do and whatever the command starts with, a command that ends has succeeded or has
reported what is wrong. It fails exactly with what escapes, so that everything else that can go
wrong is reported. -/
theorem command_reports_iff (host : Host Memory) (fuel : Nat) (invocation : Invocation)
    (start : Session Memory) :
    (∀ ending last, (command host fuel invocation).run start = (.ok ending, last) →
      ending.IsReport) ∧
    ∀ failure last, (command host fuel invocation).run start = (.error failure, last) ↔
      Escapes host fuel invocation start failure last := by
  rcases reportsOrEscapes host fuel invocation start with ⟨ending, last, ran, report⟩ |
    ⟨failure, last, escapes⟩
  · rw [ran]
    refine ⟨?_, ?_⟩
    · rintro _ _ ⟨⟩
      exact report
    · intro failure other
      constructor
      · rintro ⟨⟩
      · intro escapes
        rw [← ran]
        exact escapes.command_run
  · have ran := escapes.command_run
    rw [ran]
    refine ⟨?_, ?_⟩
    · rintro _ _ ⟨⟩
    · intro failure' last'
      constructor
      · rintro ⟨⟩
        exact escapes
      · intro escapes'
        rw [← ran]
        exact escapes'.command_run

section Unread

/-- A script that is no text, and nothing else. -/
def noText : Files where
  directory := ⟨["work"]⟩
  contents := [(⟨["work", "bad.txt"]⟩, .bytes ⟨#[0xff]⟩)]

/-- The path of a script. -/
def readingOne (path : String) : Invocation :=
  ⟨[path], [], noText, "3.11"⟩

theorem loading_noText :
    Loading noText { paths := ["bad.txt"] } (equipped nothingDone.world ⟨.bool true, []⟩)
      (.failed .notText)
      (Request.bundle { paths := ["bad.txt"] } (equipped nothingDone.world ⟨.bool true, []⟩)) := by
  refine @Loading.unreadable _ _ _ _ [] [] _ _ _ _ (.nil _) rfl .nil ?_ ?_
  · decide
  · rfl

theorem command_reports_iff_noText :
    (∃ ending last, (command (Library.host 40 1) 40 (readingOne "c.txt")).run nothingDone =
      (.ok ending, last) ∧ ending.IsReport) ∧
    ∃ last, (command (Library.host 40 1) 40 (readingOne "bad.txt")).run nothingDone =
      (.error (.fault .notText), last) := by
  have missing : Loading noText { paths := ["c.txt"] }
      (equipped nothingDone.world ⟨.bool true, []⟩) (.refused _) _ :=
    @Loading.missing _ _ _ _ [] [] ⟨["work", "c.txt"]⟩ _ _ (.nil _) rfl .nil (by decide)
  have refused := @Loading.command_run (readingOne "c.txt") _ _ (Library.host 40 1) 40
    nothingDone _ _ rfl rfl missing
  rw [afterLoading] at refused
  have reports := command_reports_iff (Library.host 40 1) 40 (readingOne "c.txt") nothingDone
  have escapes := command_reports_iff (Library.host 40 1) 40 (readingOne "bad.txt") nothingDone
  have escaped := (escapes.2 _ _).mpr (.unread rfl rfl loading_noText)
  exact ⟨⟨_, _, refused, reports.1 _ _ refused⟩, _, escaped⟩

/-- A script that is no text leaves the command without a report. -/
theorem command_readingOne :
    (readingOne "bad.txt").reading = .ok (.request { paths := ["bad.txt"] }) ∧
      ((command (Library.host 40 1) 40 (readingOne "bad.txt")).run nothingDone).1 =
        .error (.fault .notText) := by
  have ran := @Loading.command_run (readingOne "bad.txt") _ _ (Library.host 40 1) 40
    nothingDone _ _ rfl rfl loading_noText
  exact ⟨rfl, congrArg Prod.fst ran⟩

end Unread

end CommandLine

end LineScript
