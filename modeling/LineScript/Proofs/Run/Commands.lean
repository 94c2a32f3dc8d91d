import LineScript.Proofs.Run.Alone
import LineScript.Proofs.Session.Dereferencing

/-!
# Commands without placeholders

A template without double quotes matches the line that is the same text, and takes no arguments
from it. The handler gets the line itself, or what it stands for when it is a name, and it is called
once, unless it asks for more by what it returns (`LineScript.Run.script_command`).
-/

namespace LineScript

open Reference (IsName)

/-- The action of a command: a template, and a function that handles it. -/
def Action.command (text : String) (function : Callable) : Action :=
  ⟨.text text, .pattern (Template.pattern text), .call function, .bool true⟩

/-- Registering a template and a function with an engine that does not skip comments makes it an
engine of the command. -/
theorem Engine.registerAction_command {options : Options} (plain : options.common.truthy = false)
    (text : String) (function : Callable) :
    ∃ engine, (ofOptions options).registerAction (.text text) (.callable function) [] =
        .ok engine ∧ engine.IsOf [Action.command text function] := by
  refine ⟨_, rfl, ?_⟩
  have first : firstActions options = [] := by
    unfold firstActions
    rw [if_neg (Bool.eq_false_iff.mp plain)]
  have own := (isOf_ofOptions options).append [Action.command text function]
  rw [first] at own
  exact own

/-- A template without double quotes is found in the line that is the same text, and takes nothing
from it. -/
theorem Template.groups?_self {text : String} (unquoted : '"' ∉ text.toList)
    (unbroken : '\n' ∉ text.toList) : (pattern text).groups? text.toList = some [] := by
  have whole : Cut text.toList [text.toList] := by
    refine .last ?_
    rintro ⟨front, rest, same, -, starts⟩
    obtain ⟨inside, behind, -, -, split⟩ := starts.split
    rw [List.append_nil] at split
    exact unquoted (by rw [same, split]; simp)
  obtain ⟨answer, answers, found⟩ := exists_answers text unbroken
  rw [(Cut.literals text.toList).unique whole] at answers
  cases answers with
  | unfilled failed => exact absurd (.last text.toList) (failed [])
  | filled longest =>
      rw [found, longest.1.last_inv.1]
      rfl

namespace Run

variable {Memory : Type} {text : String} {function : Callable}

/-- What the function gets for the line of a command: the value under the name that the line is, if
it is one other than that of the line at hand, and else the line itself. -/
inductive Receives (state : State) (text : String) : Except Fault Value → Prop where
  | value {value : Value} : IsName text.toList → text ≠ State.lineName →
      state.get? text = some value → Receives state text (.ok value)
  | missing : IsName text.toList → text ≠ State.lineName → state.get? text = none →
      Receives state text (.error (.script (.unknownReference text)))
  | line : ¬IsName text.toList ∨ text = State.lineName → Receives state text (.ok (.text text))

/-- A line is dereferenced to what the function gets for it. -/
theorem Receives.dereference_eq {state : State} {meaning : Except Fault Value}
    (receives : Receives state text meaning) (unquoted : '"' ∉ text.toList)
    (unbroken : '\n' ∉ text.toList) :
    State.dereference ((state.put State.engineName .engine).put State.lineName (.text text))
      (.text text) = meaning := by
  have kept (named : IsName text.toList) (other : text ≠ State.lineName) :
      ((state.put State.engineName .engine).put State.lineName (.text text)).get? text =
        state.get? text := by
    have engine : text ≠ State.engineName := by
      rintro rfl
      exact absurd ((Reference.isParts_iff _).mpr named) (by decide)
    rw [Entries.get?_put_of_ne _ _ other, Entries.get?_put_of_ne _ _ engine]
  cases receives with
  | value named other held =>
      rw [State.dereference_of_name _ named (Or.inl rfl), kept named other, held]
  | missing named other absent =>
      rw [State.dereference_of_name _ named (Or.inl rfl), kept named other, absent]
  | line itself =>
      rcases itself with unnamed | same
      · refine State.dereference_of_other _ (fun inside => ⟨?_, ?_⟩) unnamed ?_
        · rintro rfl
          exact unquoted (by simp [Reference.toList_quote])
        · rintro rfl
          exact unquoted (by simp [Reference.toList_quote])
        · rintro name - rfl
          exact unbroken (by simp)
      · subst same
        have named : IsName State.lineName.toList := (Reference.isParts_iff _).mp (by decide)
        rw [State.dereference_of_name _ named (Or.inl rfl), Entries.get?_put_self]

/-- The line of a command is taken by its action, without arguments. -/
theorem handledBy_command (host : Host Memory) (function : Callable)
    (unquoted : '"' ∉ text.toList) (unbroken : '\n' ∉ text.toList) :
    HandledBy host [Action.command text function] text (Action.command text function) [] := by
  refine ⟨⟨[], [], rfl, List.forall_mem_nil _⟩, ?_⟩
  have found : (Template.pattern text).groups? text.toList =
      some (([] : List (List Char)).map some) :=
    Template.groups?_self unquoted unbroken
  exact takesAtOnce_some rfl rfl found

/-- The one argument for the handler of a command, or the fault instead of it. -/
theorem Receives.argumentsFor_eq (function : Callable) {session : Session Memory}
    (world : World Memory) {meaning : Except Fault Value}
    (receives : Receives session.state text meaning)
    (unquoted : '"' ∉ text.toList) (unbroken : '\n' ∉ text.toList) :
    argumentsFor (Action.command text function) (.text text) []
      ((opening [Action.command text function] (session.inWorld world)).withLine
        (.text text)).state = meaning.map fun value => [value] := by
  have stands : State.dereference ((opening [Action.command text function]
      (session.inWorld world)).withLine (.text text)).state (.text text) = meaning :=
    receives.dereference_eq unquoted unbroken
  change ([Value.text text].mapM (State.dereference _)) = _
  rw [List.mapM_cons, stands]
  cases meaning with
  | error fault => rfl
  | ok value => rfl

/-- Lines that handlers are called for behind the first turn are such that earlier results have put
there. -/
theorem exists_replacement_of_later {actions : List Action} {host : Host Memory} {fuel : Nat}
    {line : Line} {session : Session Memory} {first turn : Turn Memory}
    {front back : List (Turn Memory)} (texts : ∀ action ∈ actions, action.sentinel? = none)
    (turns : (course host actions (fuel + 1) [line, finishLine] false session).turns =
      first :: (front ++ turn :: back)) (calls : turn.invocations ≠ []) :
    ∃ earlier ∈ first :: front, ∃ call ∈ earlier.invocations, ∃ result replacement,
      call.result = .ok result ∧ Replacement.ofValue? result = some replacement ∧
        turn.line ∈ replacement.lines := by
  have follows := course_follows host actions (fuel + 1) [line, finishLine] false session
  have taken {other : Turn Memory} (member : other ∈ first :: (front ++ turn :: back)) :
      other.toExecution = execution host actions other.line other.session :=
    follows.toExecution_eq (turns ▸ member)
  have unfinished : turn.line ≠ finishLine := by
    intro finish
    have same := taken (List.mem_cons_of_mem first
      (List.mem_append_right front List.mem_cons_self))
    rw [finish] at same
    exact calls ((congrArg Execution.invocations same).trans
      (execution_finishLine host texts turn.session).1)
  have made {earlier : Turn Memory} (member : earlier ∈ first :: front) {lines : List Line}
      (rewritten : earlier.result = .ok (.rewrite lines)) (own : turn.line ∈ lines) :
      ∃ earlier ∈ first :: front, ∃ call ∈ earlier.invocations, ∃ result replacement,
        call.result = .ok result ∧ Replacement.ofValue? result = some replacement ∧
          turn.line ∈ replacement.lines := by
    have same := taken (List.mem_append_left (turn :: back) member)
    rw [same] at rewritten
    obtain ⟨call, called, result, replacement, returned, known, rfl⟩ := execution_rewrite rewritten
    rw [← same] at called
    exact ⟨earlier, member, call, called, result, replacement, returned, known, own⟩
  cases ended : (turnOf host actions line [finishLine] session).result with
  | error failure =>
      rw [course_cons_of_error ended] at turns
      obtain ⟨rfl, others⟩ := List.cons.inj turns
      obtain ⟨rfl, -, fault, -, cleanup⟩ := failureCourse_turns others
      have rows := congrArg Course.turns cleanup
      rw [cleanUpCourse_turns] at rows
      obtain ⟨rfl, -⟩ := List.cons.inj rows
      exact absurd rfl unfinished
  | ok outcome =>
      rw [course_cons_of_ok ended] at turns
      obtain ⟨rfl, others⟩ := List.cons.inj turns
      rcases course_line_origin others with waiting | finish | ⟨earlier, member, lines, known, own⟩
      · rcases mem_queueAfter waiting with queued | finish | ⟨lines, rfl, own⟩
        · exact absurd (List.mem_singleton.mp queued) unfinished
        · exact absurd finish unfinished
        · exact made List.mem_cons_self ended own
      · exact absurd finish unfinished
      · exact made (List.mem_cons_of_mem _ member) known own

/-- **Commands.** On an engine with a command for its only action, the script of the line that is
its text is approved. The handler is called for it once, with the value that the state has under
this name if the line is a name other than that of the line at hand, and else with the line itself;
if the state has no such value, the run fails with it and calls nothing. The handler is called once
more only for lines that it has returned itself. -/
theorem script_command (host : Host Memory) {options : Options}
    (plain : options.common.truthy = false) (function : Callable) (filled : text ≠ "")
    (unquoted : '"' ∉ text.toList) (unbroken : Text.Unbroken text.toList)
    (own : Line.ofText text = .text text) :
    (∃ engine, (Engine.ofOptions options).registerAction (.text text) (.callable function) [] =
        .ok engine ∧ engine.IsOf [Action.command text function]) ∧
    ∀ {session : Session Memory} {fuel : Nat},
      session.world.engine.IsOf [Action.command text function] → 1 < fuel →
      ∃ (world : World Memory) (first : Turn Memory) (others : List (Turn Memory)),
        (approve host fuel (.text text)).run session.world =
          (.ok ([Action.command text function], [.text text]), world) ∧
        world.memory = session.world.memory ∧
        (runCourse host fuel [Action.command text function] [.text text]
          (session.inWorld world)).turns = first :: others ∧
        first.line = .text text ∧
        (∀ value, Receives session.state text (.ok value) → ∃ start,
          first.invocations = [invocation host (Action.command text function) [value] start]) ∧
        (∀ fault, Receives session.state text (.error fault) →
          (∀ turn ∈ first :: others, turn.invocations = []) ∧
            ((script host fuel (.text text)).run session).1 = .error (.fault fault)) ∧
        ∀ front turn back, others = front ++ turn :: back → turn.invocations ≠ [] →
          ∃ earlier ∈ first :: front, ∃ call ∈ earlier.invocations, ∃ result replacement,
            call.result = .ok result ∧ Replacement.ofValue? result = some replacement ∧
              turn.line ∈ replacement.lines := by
  refine ⟨Engine.registerAction_command plain text function, ?_⟩
  intro session fuel ready enough
  have texts : ∀ action ∈ [Action.command text function], action.sentinel? = none :=
    List.forall_mem_singleton.mpr rfl
  have handled := handledBy_command host function unquoted unbroken.2
  have consists : Script.ConsistsOf (.text text) ([text].map .text) := by
    have cut := Script.ConsistsOf.text (.last unbroken)
    rw [List.map_singleton, String.ofList_toList] at cut
    exact cut
  obtain ⟨world, approved, -, memory⟩ := ready.approve_texts_run enough consists
    (List.forall_mem_singleton.mpr ⟨filled, own⟩)
    (List.forall_mem_singleton.mpr ⟨_, _, handled⟩)
  obtain ⟨fuel, rfl⟩ := Nat.exists_eq_succ_of_ne_zero (Nat.ne_zero_of_lt enough)
  let actions := [Action.command text function]
  let start := opening actions (session.inWorld world)
  obtain ⟨others, turns⟩ :=
    course_cons_turns host actions fuel (.text text) [finishLine] false start
  refine ⟨world, _, others, approved, memory, turns, rfl, ?_, ?_, ?_⟩
  · intro value receives
    have given := receives.argumentsFor_eq function world unquoted unbroken.2
    exact ⟨_, (handled.execution_of_ok given).1⟩
  · intro fault receives
    have given := receives.argumentsFor_eq function world unquoted unbroken.2
    obtain ⟨calls, refused, -⟩ := handled.execution_of_refused given
    have failed : (turnOf host actions (.text text) [finishLine] start).result =
        .error (.fault fault) := refused
    have whole := course_cons_of_error failed fuel false
    obtain ⟨ended, silent⟩ := cleanUpCourse_of_texts host texts fault
      (turnOf host actions (.text text) [finishLine] start).after.withoutLine
    constructor
    · have rest := turns.symm.trans (congrArg Course.turns whole)
      obtain ⟨-, rfl⟩ := List.cons.inj rest
      refine List.forall_mem_cons.mpr ⟨calls, fun turn member => ?_⟩
      exact List.map_eq_nil_iff.mp (List.flatMap_eq_nil_iff.mp silent turn member)
    · rw [script_run_of_approved approved]
      exact (congrArg Course.result whole).trans ended
  · rintro front turn back rfl calls
    exact exists_replacement_of_later texts turns calls

/-- Signs that patterns are written with stand for themselves in a command. -/
theorem script_command_signs :
    ∃ (engine : Engine) (world : World Unit) (first : Turn Unit) (others : List (Turn Unit)),
      (Engine.ofOptions ⟨.bool false, []⟩).registerAction (.text "a.b (c|d)* $1")
        (.callable ⟨0, "own"⟩) [] = .ok engine ∧
      (runCourse Host.ofNames 2 [Action.command "a.b (c|d)* $1" ⟨0, "own"⟩]
        [.text "a.b (c|d)* $1"] ⟨[], world⟩).turns = first :: others ∧
      ∃ start, first.invocations = [invocation Host.ofNames
        (Action.command "a.b (c|d)* $1" ⟨0, "own"⟩) [.text "a.b (c|d)* $1"] start] := by
  have plain : (⟨.bool false, []⟩ : Options).common.truthy = false := rfl
  have unnamed : ¬IsName "a.b (c|d)* $1".toList := by
    rw [← Reference.isParts_iff]
    decide
  obtain ⟨⟨engine, made, own⟩, runs⟩ := script_command Host.ofNames plain ⟨0, "own"⟩
    (by decide : "a.b (c|d)* $1" ≠ "") (by decide) ⟨by decide, by decide⟩ (by decide +kernel)
  have ready : (⟨[], ⟨engine, [], ()⟩⟩ : Session Unit).world.engine.IsOf
      [Action.command "a.b (c|d)* $1" ⟨0, "own"⟩] := own
  obtain ⟨world, first, others, -, -, turns, -, called, -⟩ := runs ready (Nat.lt_succ_self 1)
  exact ⟨engine, world, first, others, made, turns, called _ (.line (Or.inl unnamed))⟩

/-- A command that is a name without a value is recognized, but its handler is not called. -/
theorem script_command_deploy :
    "DEPLOY" ≠ "" ∧ '"' ∉ "DEPLOY".toList ∧ Text.Unbroken "DEPLOY".toList ∧
      Line.ofText "DEPLOY" = .text "DEPLOY" ∧
      ∃ engine, (Engine.ofOptions ⟨.bool false, []⟩).registerAction (.text "DEPLOY")
          (.callable ⟨0, "deploy"⟩) [] = .ok engine ∧
        ((approve Host.ofNames 2 (.text "DEPLOY")).run ⟨engine, [], ()⟩).1.isOk = true ∧
        ((script Host.ofNames 2 (.text "DEPLOY")).run ⟨[], ⟨engine, [], ()⟩⟩).1 =
          .error (.fault (.script (.unknownReference "DEPLOY"))) ∧
        (runCourse Host.ofNames 2 [Action.command "DEPLOY" ⟨0, "deploy"⟩] [.text "DEPLOY"]
          ⟨[], ⟨engine, [], ()⟩⟩).turns.all (fun turn => turn.invocations.isEmpty) = true := by
  refine ⟨by decide, by decide, ⟨by decide, by decide⟩, by decide +kernel, _, rfl, ?_, ?_, ?_⟩
  · decide +kernel
  · decide +kernel
  · decide +kernel

end Run

end LineScript
