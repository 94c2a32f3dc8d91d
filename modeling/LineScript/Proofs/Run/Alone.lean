import LineScript.Proofs.Action.Templates
import LineScript.Proofs.Run.Handlers
import LineScript.Proofs.Run.Inspection
import LineScript.Proofs.Run.Recognition
import LineScript.Proofs.Run.Transient
import LineScript.Proofs.Script.Lines
import LineScript.Proofs.Vocabulary.Ready

/-!
# Lines that one action handles alone

A pattern is searched for in a line without anything else being done. When one action takes
arguments from a line so, and every other action of the engine passes it, then the line is
recognized, and executing it comes to one call of the handler with these arguments
(`LineScript.Run.HandledBy.execution_of_ok`). A script of such lines is approved as it stands
(`LineScript.Engine.IsOf.approve_run`).
-/

namespace LineScript

variable {Memory : Type} {host : Host Memory} {actions : List Action} {content : String}

namespace Run

/-- Whether an action is offered a text line and tells at once which arguments it takes from it, if
it matches. -/
structure TakesAtOnce (host : Host Memory) (action : Action) (content : String)
    (taken : Option (List Value)) : Prop where
  accepts : action.accepts (.text content) = true
  matched : ∀ world : World Memory,
    (action.matched host (.text content)).run world = (.ok taken, world)

theorem takesAtOnce_of_reply {action : Action} {pattern : Pattern} {reply : Value}
    (texts : action.sentinel? = none) (own : action.matcher = .pattern pattern)
    (replies : Matcher.patternReply pattern (.text content) = reply) :
    TakesAtOnce host action content (Matcher.arguments? reply) := by
  refine ⟨Option.isNone_iff_eq_none.mpr texts, fun world => ?_⟩
  unfold Action.matched
  rw [own, ← replies]
  rfl

/-- An action with a pattern that is not found in a line passes the line. -/
theorem takesAtOnce_none {action : Action} {pattern : Pattern} (texts : action.sentinel? = none)
    (own : action.matcher = .pattern pattern) (missed : pattern.groups? content.toList = none) :
    TakesAtOnce host action content none := by
  have reply : Matcher.patternReply pattern (.text content) = .null := by
    simp only [Matcher.patternReply, missed]
  exact takesAtOnce_of_reply texts own reply

/-- An action with a pattern takes the texts of its groups from a line. -/
theorem takesAtOnce_some {action : Action} {pattern : Pattern} {args : List (List Char)}
    (texts : action.sentinel? = none) (own : action.matcher = .pattern pattern)
    (found : pattern.groups? content.toList = some (args.map some)) :
    TakesAtOnce host action content (some (args.map fun arg => .text (String.ofList arg))) :=
  takesAtOnce_of_reply texts own (Matcher.patternReply_of_groups? found)

/-- Whether one of the actions takes some arguments from a text line, and all others pass it. -/
structure HandledBy (host : Host Memory) (actions : List Action) (content : String)
    (action : Action) (taken : List Value) : Prop where
  split : ∃ front back, actions = front ++ action :: back ∧
    ∀ other ∈ front ++ back, TakesAtOnce host other content none
  takes : TakesAtOnce host action content (some taken)

theorem isRecognized_of_takesAtOnce_none {front : List Action}
    (passes : ∀ other ∈ front, TakesAtOnce host other content none) (others : List Action)
    (world : World Memory) :
    (isRecognized host (.text content) (front ++ others)).run world =
      (isRecognized host (.text content) others).run world := by
  induction front with
  | nil => rfl
  | cons other front ih =>
      obtain ⟨own, rest⟩ := List.forall_mem_cons.mp passes
      have accepted : other.accepts (Line.text content).toValue = true := own.accepts
      rw [List.cons_append, isRecognized, if_pos accepted, run_bind_of_ok (own.matched world)]
      exact ih rest

theorem trial_of_takesAtOnce_none {action : Action} (passes : TakesAtOnce host action content none)
    (session : Session Memory) :
    trial host (.text content) action session = .passed session := by
  have accepted : action.accepts (Line.text content).toValue = true := passes.accepts
  unfold trial
  rw [if_pos accepted, passes.matched session.world]
  rfl

theorem offering_of_takesAtOnce_none {front : List Action}
    (passes : ∀ other ∈ front, TakesAtOnce host other content none) (others : List Action)
    (progress : LineProgress) (session : Session Memory) :
    offering host (.text content) (front ++ others) progress session =
      offering host (.text content) others progress session := by
  induction front with
  | nil => rfl
  | cons other front ih =>
      obtain ⟨own, rest⟩ := List.forall_mem_cons.mp passes
      rw [List.cons_append, offering, trial_of_takesAtOnce_none own]
      exact ih rest

theorem trial_of_takesAtOnce_some {action : Action} {taken : List Value}
    (takes : TakesAtOnce host action content (some taken)) (session : Session Memory) :
    trial host (.text content) action session =
      match argumentsFor action (.text content) taken session.state with
      | .error fault => .failed (.fault fault) session
      | .ok arguments => .invoked (invocation host action arguments session) := by
  have accepted : action.accepts (Line.text content).toValue = true := takes.accepts
  unfold trial
  rw [if_pos accepted, takes.matched session.world]
  rfl

namespace HandledBy

variable {action : Action} {taken arguments : List Value}

/-- A line that an action handles is recognized. -/
theorem isRecognized (handled : HandledBy host actions content action taken)
    (world : World Memory) :
    (Run.isRecognized host (.text content) actions).run world = (.ok true, world) := by
  obtain ⟨front, back, rfl, passes⟩ := handled.split
  have accepted : action.accepts (Line.text content).toValue = true := handled.takes.accepts
  rw [isRecognized_of_takesAtOnce_none
      fun other member => passes other (List.mem_append_left back member),
    Run.isRecognized, if_pos accepted, run_bind_of_ok (handled.takes.matched world)]
  rfl

/-- Offering a line comes to what the one action that takes arguments from it does. -/
theorem offering_eq (handled : HandledBy host actions content action taken)
    (progress : LineProgress) (session : Session Memory) :
    offering host (.text content) actions progress session =
      match argumentsFor action (.text content) taken session.state with
      | .error fault => ⟨[], .error (.fault fault), session⟩
      | .ok arguments =>
        let call := invocation host action arguments session
        match call.result with
        | .error failure => ⟨[call], .error failure, call.after⟩
        | .ok result => ⟨[call], .ok (progress.after result), regarding call.after result⟩ := by
  obtain ⟨front, back, rfl, passes⟩ := handled.split
  rw [offering_of_takesAtOnce_none
      fun other member => passes other (List.mem_append_left back member),
    offering, trial_of_takesAtOnce_some handled.takes]
  cases argumentsFor action (.text content) taken session.state with
  | error fault => rfl
  | ok arguments =>
      simp only []
      cases (invocation host action arguments session).result with
      | error failure => rfl
      | ok result =>
          have rest := offering_of_takesAtOnce_none
            (fun other member => passes other (List.mem_append_right front member)) []
            (progress.after result) (regarding (invocation host action arguments session).after
              result)
          rw [List.append_nil] at rest
          simp only [rest, endsLine_eq_isDone]
          cases done : isDone result with
          | true =>
              rw [regarding_of_isDone done]
              rfl
          | false => rfl

/-- A line fails before its handler is called if its arguments stand for nothing. -/
theorem execution_of_refused (handled : HandledBy host actions content action taken)
    {session : Session Memory} {fault : Fault}
    (refused : argumentsFor action (.text content) taken session.state = .error fault) :
    (execution host actions (.text content) session).invocations = [] ∧
      (execution host actions (.text content) session).result = .error (.fault fault) ∧
      (execution host actions (.text content) session).after =
        session.noting (.executing (.text content)) := by
  have given : argumentsFor action (.text content) taken
      (session.noting (.executing (.text content))).state = .error fault := refused
  unfold execution
  rw [handled.offering_eq, given]
  exact ⟨rfl, rfl, rfl⟩

/-- The one call for a line. -/
def callFor (host : Host Memory) (action : Action) (content : String) (arguments : List Value)
    (session : Session Memory) : Invocation Memory :=
  invocation host action arguments (session.noting (.executing (.text content)))

/-- A line comes to one call of the handler, with the arguments that are taken from it. -/
theorem execution_of_ok (handled : HandledBy host actions content action taken)
    {session : Session Memory}
    (given : argumentsFor action (.text content) taken session.state = .ok arguments) :
    let call := callFor host action content arguments session
    (execution host actions (.text content) session).invocations = [call] ∧
      (execution host actions (.text content) session).result =
        call.result.bind (fun result =>
          (outcome (.text content) (LineProgress.start.after result)).mapError .fault) ∧
      (∀ result, call.result = .ok result →
        (execution host actions (.text content) session).after = regarding call.after result) ∧
      ∀ failure, call.result = .error failure →
        (execution host actions (.text content) session).after = call.after := by
  have given' : argumentsFor action (.text content) taken
      (session.noting (.executing (.text content))).state = .ok arguments := given
  unfold execution callFor
  rw [handled.offering_eq, given']
  simp only []
  cases called : (invocation host action arguments
      (session.noting (.executing (.text content)))).result with
  | error failure => exact ⟨rfl, rfl, nofun, fun _ _ => rfl⟩
  | ok result =>
      refine ⟨rfl, rfl, ?_, nofun⟩
      intro other same
      rw [Except.ok.inj same]

/-- What a line comes to when its handler returns. -/
theorem execution_of_returned (handled : HandledBy host actions content action taken)
    {session last : Session Memory} {result : Value}
    (given : argumentsFor action (.text content) taken session.state = .ok arguments)
    (returned : (Action.handle host action.handler arguments).run
      (session.noting (.executing (.text content))) = (.ok result, last)) :
    (execution host actions (.text content) session).invocations =
        [callFor host action content arguments session] ∧
      (execution host actions (.text content) session).result =
        (outcome (.text content) (LineProgress.start.after result)).mapError .fault ∧
      (execution host actions (.text content) session).after = regarding last result := by
  obtain ⟨calls, ended, after, -⟩ := handled.execution_of_ok given
  have answer : (callFor host action content arguments session).result = .ok result :=
    congrArg Prod.fst returned
  have left : (callFor host action content arguments session).after = last :=
    congrArg Prod.snd returned
  refine ⟨calls, ?_, ?_⟩
  · rw [ended, answer]
    rfl
  · rw [after result answer, left]

/-- What a line comes to when its handler fails. -/
theorem execution_of_raised (handled : HandledBy host actions content action taken)
    {session last : Session Memory} {failure : Failure}
    (given : argumentsFor action (.text content) taken session.state = .ok arguments)
    (raised : (Action.handle host action.handler arguments).run
      (session.noting (.executing (.text content))) = (.error failure, last)) :
    (execution host actions (.text content) session).invocations =
        [callFor host action content arguments session] ∧
      (execution host actions (.text content) session).result = .error failure ∧
      (execution host actions (.text content) session).after = last := by
  obtain ⟨calls, ended, -, after⟩ := handled.execution_of_ok given
  have answer : (callFor host action content arguments session).result = .error failure :=
    congrArg Prod.fst raised
  have left : (callFor host action content arguments session).after = last :=
    congrArg Prod.snd raised
  refine ⟨calls, ?_, ?_⟩
  · rw [ended, answer]
    rfl
  · rw [after failure answer, left]

end HandledBy

/-- The actions for comments pass a line that their patterns are not found in. -/
theorem takesAtOnce_firstActions {options : Options}
    (kept : options.common.truthy = true →
      Bundled.Comments.blankLine.groups? content.toList = none ∧
        Bundled.Comments.comment.groups? content.toList = none) :
    ∀ other ∈ Engine.firstActions options, TakesAtOnce host other content none := by
  unfold Engine.firstActions
  split
  next common =>
    obtain ⟨blank, comment⟩ := kept common
    exact List.forall_mem_cons.mpr ⟨takesAtOnce_none rfl rfl blank,
      List.forall_mem_singleton.mpr (takesAtOnce_none rfl rfl comment)⟩
  next => exact List.forall_mem_nil _

/-- FINISH does nothing where all actions are for texts. -/
theorem execution_finishLine (host : Host Memory)
    (texts : ∀ action ∈ actions, action.sentinel? = none) (session : Session Memory) :
    (execution host actions finishLine session).invocations = [] ∧
      (execution host actions finishLine session).result = .ok .stopScript ∧
      (execution host actions finishLine session).after =
        session.noting (.executing finishLine) := by
  have offered (others : List Action) (progress : LineProgress) (place : Session Memory)
      (deaf : ∀ action ∈ others, action.sentinel? = none) :
      offering host finishLine others progress place = ⟨[], .ok progress, place⟩ := by
    induction others with
    | nil => rfl
    | cons action others ih =>
        obtain ⟨own, rest⟩ := List.forall_mem_cons.mp deaf
        have refused : ¬action.accepts finishLine.toValue = true := by
          rw [Action.accepts_iff, own]
          nofun
        have passed : trial host finishLine action place = .passed place := by
          unfold trial
          rw [if_neg refused]
        rw [offering, passed]
        exact ih rest
  unfold execution
  rw [offered actions .start _ texts]
  exact ⟨rfl, rfl, rfl⟩

/-- The session after FINISH where it does nothing. -/
def finished (session : Session Memory) : Session Memory :=
  (session.noting (.executing finishLine)).withoutLine

/-- A course ends with FINISH where all actions are for texts. -/
theorem course_finishLine_of_texts (texts : ∀ action ∈ actions, action.sentinel? = none)
    (fuel : Nat) (session : Session Memory) :
    course host actions (fuel + 1) [finishLine] false session =
      ⟨[turnOf host actions finishLine [] session], .ok (), finished session⟩ := by
  obtain ⟨-, succeeded, after⟩ := execution_finishLine host texts session
  have left : (turnOf host actions finishLine [] session).after.withoutLine = finished session :=
    congrArg Session.withoutLine after
  replace succeeded : (turnOf host actions finishLine [] session).result = .ok .stopScript :=
    succeeded
  rw [course_cons_of_ok succeeded, left]
  change (course host actions fuel [] true (finished session)).behind _ = _
  rw [course_nil]
  rfl

/-- The calls of handlers in a course, in their order. -/
def Course.calls (course : Course Memory) : List (Action × List Value) :=
  course.turns.flatMap fun turn => turn.invocations.map fun call => (call.action, call.arguments)

theorem Course.calls_behind (course : Course Memory) (turn : Turn Memory) :
    (course.behind turn).calls =
      (turn.invocations.map fun call => (call.action, call.arguments)) ++ course.calls := rfl

/-- The cleanup calls nothing where all actions are for texts, and the fault remains. -/
theorem cleanUpCourse_of_texts (host : Host Memory)
    (texts : ∀ action ∈ actions, action.sentinel? = none) (fault : Fault)
    (session : Session Memory) :
    (cleanUpCourse host actions fault session).result = .error (.fault fault) ∧
      (cleanUpCourse host actions fault session).calls = [] := by
  obtain ⟨calls, result, -⟩ := execution_finishLine host texts session
  have ended : (cleanUpTurn host actions session).result = .ok .stopScript := result
  unfold cleanUpCourse
  simp only [ended, true_and]
  change ((execution host actions finishLine session).invocations.map _) ++ [] = []
  rw [calls]
  rfl

/-- Lines that are all recognized pass the inspection. -/
theorem diagnostics_of_all {lines : List (Nat × Line)} {world : World Memory}
    (recognized : ∀ text, .text text ∈ lines.map Prod.snd →
      (isRecognized host (.text text) actions).run world = (.ok true, world)) :
    (diagnostics host actions lines).run world = (.ok [], world) := by
  induction lines with
  | nil => rfl
  | cons line lines ih =>
      obtain ⟨number, line⟩ := line
      have rest := ih fun text member => recognized text (List.mem_cons_of_mem _ member)
      cases line with
      | sentinel mark => exact rest
      | text text =>
          rw [diagnostics_of_recognized (recognized text List.mem_cons_self)]
          exact rest

end Run

/-- Texts that are no control values are executed as they stand. -/
theorem Script.executedOf_texts {contents : List String}
    (plain : ∀ content ∈ contents, content ≠ "" ∧ Line.ofText content = .text content) :
    executedOf (contents.map .text) = contents.map .text := by
  induction contents with
  | nil => rfl
  | cons content contents ih =>
      obtain ⟨⟨filled, text⟩, rest⟩ := List.forall_mem_cons.mp plain
      have own : Line.ofValue (.text content) = .text content := text
      have other : Line.ofValue (.text content) ≠ .sentinel .finish := by
        rw [own]
        nofun
      rw [List.map_cons, executedOf_cons (fun same => filled (Value.text.inj same)) other, own,
        ih rest, List.map_cons]

namespace Engine.IsOf

/-- A script of lines that are all recognized is approved as it stands, and nothing is called for
that. -/
theorem approve_run {world : World Memory} (own : world.engine.IsOf actions) {fuel : Nat}
    (enough : actions.length < fuel) {source : Value} {items : List Value}
    (consists : Script.ConsistsOf source items)
    (recognized : ∀ text, .text text ∈ Script.executedOf items → ∀ other : World Memory,
      (Run.isRecognized host (.text text) actions).run other = (.ok true, other)) :
    ∃ last : World Memory,
      (Run.approve host fuel source).run world = (.ok (actions, Script.executedOf items), last) ∧
        last.engine.IsOf actions ∧ last.memory = world.memory := by
  obtain ⟨last, prepared, ready, memory⟩ :=
    own.prepare_run host (Nat.lt_add_left world.engine.resolved enough)
  refine ⟨last, ?_, ready, memory⟩
  rw [Run.approve_of_prepared (Run.scriptLines_run consists fuel world) prepared,
    Run.diagnostics_of_all fun text member => recognized text member last]
  rfl

/-- A script of texts of which each is handled by one action is approved as it stands. -/
theorem approve_texts_run {world : World Memory} (own : world.engine.IsOf actions) {fuel : Nat}
    (enough : actions.length < fuel) {source : Value} {contents : List String}
    (consists : Script.ConsistsOf source (contents.map .text))
    (plain : ∀ content ∈ contents, content ≠ "" ∧ Line.ofText content = .text content)
    (handled : ∀ content ∈ contents, ∃ action taken,
      Run.HandledBy host actions content action taken) :
    ∃ last : World Memory,
      (Run.approve host fuel source).run world = (.ok (actions, contents.map .text), last) ∧
        last.engine.IsOf actions ∧ last.memory = world.memory := by
  have executed := Script.executedOf_texts plain
  rw [← executed]
  refine own.approve_run enough consists fun text member other => ?_
  rw [executed] at member
  obtain ⟨content, listed, same⟩ := List.mem_map.mp member
  obtain ⟨action, taken, one⟩ := handled content listed
  rw [← Line.text.inj same]
  exact one.isRecognized other

end Engine.IsOf

/-- A session with an empty state and an engine that skips comments and has the bundled actions. -/
def Session.bundled : Session Unit where
  state := []
  world :=
    ⟨(Engine.ofOptions ⟨.bool true, []⟩).register (.list (Bundled.actions.map .action)), [], ()⟩

theorem Session.bundled_isOf :
    Session.bundled.world.engine.IsOf (Engine.bundledActions ⟨.bool true, []⟩) :=
  .bundled ⟨.bool true, []⟩

end LineScript
