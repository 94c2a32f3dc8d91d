import LineScript.Proofs.Run.Inspection

/-!
# Runs in step

Two rows of actions are *in step* in worlds that are related in some way if a line that is inspected
or executed comes to the same with both, and leaves worlds that are so related. Then courses and
runs with these actions come to the same too (`LineScript.Run.script_inStep`). Of the events only
those of some kind are compared, so that an action which passes a line may be left out
(`LineScript.Run.InStep.skip`).
-/

namespace LineScript

variable {Memory : Type} {Related : World Memory → World Memory → Prop} {host : Host Memory}

/-- Whether two sessions have the same state, and related worlds. -/
structure Session.Over (Related : World Memory → World Memory → Prop)
    (first second : Session Memory) : Prop where
  state : first.state = second.state
  world : Related first.world second.world

/-- Whether what has been noted does not matter to a relation of worlds. -/
def OverlooksNotices (Related : World Memory → World Memory → Prop) : Prop :=
  ∀ {first second next other : World Memory}, next.Alike first → other.Alike second →
    Related first second → Related next other

namespace Session.Over

variable {first second : Session Memory}

theorem inWorld (paired : first.Over Related second) {world other : World Memory}
    (related : Related world other) : (first.inWorld world).Over Related (second.inWorld other) :=
  ⟨paired.state, related⟩

theorem ofAlike (overlooks : OverlooksNotices Related) {next other : Session Memory}
    (paired : first.Over Related second) (alike : next.Alike first) (alike' : other.Alike second) :
    next.Over Related other :=
  ⟨alike.state.trans (paired.state.trans alike'.state.symm),
    overlooks alike.world alike'.world paired.world⟩

theorem noting (overlooks : OverlooksNotices Related) (paired : first.Over Related second)
    (notice other : Notice) : (first.noting notice).Over Related (second.noting other) :=
  paired.ofAlike overlooks ⟨rfl, .noting_left _ _⟩ ⟨rfl, .noting_left _ _⟩

theorem withLine (paired : first.Over Related second) (line : Line) :
    (first.withLine line).Over Related (second.withLine line) := by
  cases line with
  | text content => exact ⟨congrArg (Entries.put · _ _) paired.state, paired.world⟩
  | sentinel mark => exact paired

theorem withoutLine (paired : first.Over Related second) :
    first.withoutLine.Over Related second.withoutLine :=
  ⟨congrArg (Entries.erase · _) paired.state, paired.world⟩

end Session.Over

/-- Whether all that a host does comes to the same in related worlds, and leaves related worlds. -/
structure Host.WorksAlike (host : Host Memory) (Related : World Memory → World Memory → Prop) :
    Prop extends host.QueriesAre (Respects Related) where
  sleep : ∀ seconds, Respects Related Unit (host.sleep seconds)
  print : ∀ line, Respects Related Unit (host.print line)
  readKey : Respects Related (Option Char) host.readKey
  callHandler : ∀ function arguments,
    Respects (Session.Over Related) Answer (host.callHandler function arguments)

theorem OverlooksNotices.note (overlooks : OverlooksNotices Related) (notice : Notice) :
    Respects Related Unit (Query.note notice : Query Memory Unit) :=
  fun _ _ related => ⟨rfl, overlooks (.noting_left _ _) (.noting_left _ _) related⟩

theorem Respects.liftOver {α : Type} {query : Query Memory α}
    (respects : Respects Related α query) :
    Respects (Session.Over Related) α (Query.lift query) := by
  intro start other paired
  obtain ⟨same, after⟩ := respects start.world other.world paired.world
  exact ⟨same, paired.inWorld after⟩

theorem Respects.attemptOver {α : Type} {procedure : Procedure Memory α}
    (respects : Respects (Session.Over Related) α procedure) :
    Respects (Session.Over Related) (Except Failure α) (Procedure.attempt procedure) := by
  intro start other paired
  obtain ⟨same, after⟩ := respects start other paired
  exact ⟨congrArg Except.ok same, after⟩

theorem respectsOver_state :
    Respects (Session.Over Related) State (Procedure.state : Procedure Memory State) :=
  fun _ _ paired => ⟨congrArg Except.ok paired.state, paired⟩

theorem respectsOver_modifyState (change : State → State) :
    Respects (Session.Over Related) Unit
      (Procedure.modifyState change : Procedure Memory Unit) :=
  fun _ _ paired => ⟨rfl, congrArg change paired.state, paired.world⟩

theorem Host.WorksAlike.procedures (works : host.WorksAlike Related)
    (overlooks : OverlooksNotices Related) :
    host.ProceduresAre (Respects Related) (Respects (Session.Over Related)) where
  toQueriesAre := works.toQueriesAre
  sleep := works.sleep
  print := works.print
  readKey := works.readKey
  callHandler := works.callHandler
  note := overlooks.note
  lift := Respects.liftOver
  attempt := Respects.attemptOver
  state := respectsOver_state
  modifyState := respectsOver_modifyState

namespace Run

/-- Whether an action does the same with lines in related worlds: its matcher answers the same, and
so does its handler. -/
structure ActsOver (host : Host Memory) (Related : World Memory → World Memory → Prop)
    (action : Action) : Prop where
  matched : ∀ line, Respects Related (Option (List Value)) (action.matched host line)
  handle : ∀ arguments,
    Respects (Session.Over Related) Value (Action.handle host action.handler arguments)

theorem actsOver_of_worksAlike (works : host.WorksAlike Related)
    (overlooks : OverlooksNotices Related) (action : Action) : ActsOver host Related action where
  matched _ := Matcher.arguments_is (sequential_respects _) works.toQueriesAre _ _
  handle _ := Action.handle_is (sequential_respects _) (sequential_respects _)
    (works.procedures overlooks) _ _

/-- Whether trials in related worlds come to the same. -/
inductive TrialsOver (Related : World Memory → World Memory → Prop) :
    Trial Memory → Trial Memory → Prop where
  | passed {session other : Session Memory} :
      session.Over Related other → TrialsOver Related (.passed session) (.passed other)
  | failed (failure : Failure) {session other : Session Memory} :
      session.Over Related other →
      TrialsOver Related (.failed failure session) (.failed failure other)
  | invoked {call other : Invocation Memory} :
      call.events = other.events → call.result = other.result →
      call.after.Over Related other.after → TrialsOver Related (.invoked call) (.invoked other)

theorem ActsOver.trial {action : Action} (acts : ActsOver host Related action) (line : Line)
    {session other : Session Memory} (paired : session.Over Related other) :
    TrialsOver Related (Run.trial host line action session)
      (Run.trial host line action other) := by
  unfold Run.trial
  by_cases accepted : action.accepts line.toValue
  · rw [if_pos accepted, if_pos accepted]
    obtain ⟨result, related⟩ := acts.matched line session.world other.world paired.world
    rcases one : (action.matched host line).run session.world with ⟨answer, world⟩
    rcases two : (action.matched host line).run other.world with ⟨answer', world'⟩
    rw [one, two] at result related
    obtain rfl : answer = answer' := result
    rcases answer with failure | _ | taken
    · exact .failed failure (paired.inWorld related)
    · exact .passed (paired.inWorld related)
    · simp only [← paired.state]
      cases argumentsFor action line taken session.state with
      | error fault => exact .failed (.fault fault) (paired.inWorld related)
      | ok arguments =>
          obtain ⟨result, after⟩ := acts.handle arguments _ _ (paired.inWorld related)
          refine .invoked ?_ result after
          unfold Invocation.events invocation
          simp only [Session.inWorld, paired.state]
  · rw [if_neg accepted, if_neg accepted]
    exact .passed paired

/-- Whether a line comes to the same with two rows of actions in related worlds, where only events
of some kind count: when it is inspected, and when it is offered to them. -/
structure InStep (host : Host Memory) (Related : World Memory → World Memory → Prop)
    (kept : Event → Bool) (line : Line) (actions others : List Action) : Prop where
  recognition : ∀ world other, Related world other →
    ((isRecognized host line actions).run world).1 =
        ((isRecognized host line others).run other).1 ∧
      Related ((isRecognized host line actions).run world).2
        ((isRecognized host line others).run other).2 ∧
      ((recognitionQuestions host line actions world).map Question.event).filter kept =
        ((recognitionQuestions host line others other).map Question.event).filter kept
  offering : ∀ progress session other, session.Over Related other →
    (Run.offering host line actions progress session).result =
        (Run.offering host line others progress other).result ∧
      (Run.offering host line actions progress session).session.Over Related
        (Run.offering host line others progress other).session ∧
      (offeringEvents host line actions session).filter kept =
        (offeringEvents host line others other).filter kept

/-- Actions that pass a line leave its recognition to the others. -/
theorem isRecognized_of_passes {line : Line} {front : List Action}
    (passes : ∀ action ∈ front, Passes host line action) (others : List Action)
    (world : World Memory) :
    ∃ next asked, next.Alike world ∧
      (isRecognized host line (front ++ others)).run world =
        (isRecognized host line others).run next ∧
      (recognitionQuestions host line (front ++ others) world).map Question.event =
        asked ++ (recognitionQuestions host line others next).map Question.event ∧
      ∀ event ∈ asked, ∃ action ∈ front, event = .asked action.matcher line := by
  induction front generalizing world with
  | nil => exact ⟨world, [], .refl world, rfl, rfl, List.forall_mem_nil _⟩
  | cons action front ih =>
      obtain ⟨own, rest⟩ := List.forall_mem_cons.mp passes
      have later {event : Event}
          (known : ∃ other ∈ front, event = .asked other.matcher line) :
          ∃ other ∈ action :: front, event = .asked other.matcher line := by
        obtain ⟨other, listed, same⟩ := known
        exact ⟨other, List.mem_cons_of_mem action listed, same⟩
      rw [List.cons_append, isRecognized, recognitionQuestions]
      by_cases accepted : action.accepts line.toValue
      · rw [if_pos accepted, if_pos accepted]
        obtain ⟨result, first⟩ := own accepted world
        rcases one : (action.matched host line).run world with ⟨answer, between⟩
        rw [one] at result first
        obtain rfl : answer = .ok none := result
        obtain ⟨next, asked, second, recognized, questions, asks⟩ := ih rest between
        refine ⟨next, .asked action.matcher line :: asked, second.trans first, ?_, ?_, ?_⟩
        · rw [run_bind_of_ok one]
          exact recognized
        · rw [List.map_cons]
          exact congrArg _ questions
        · refine List.forall_mem_cons.mpr ⟨⟨action, List.mem_cons_self, rfl⟩, ?_⟩
          exact fun event member => later (asks event member)
      · rw [if_neg accepted, if_neg accepted]
        obtain ⟨next, asked, alike, recognized, questions, asks⟩ := ih rest world
        exact ⟨next, asked, alike, recognized, questions,
          fun event member => later (asks event member)⟩

namespace InStep

variable {kept : Event → Bool} {line : Line} {actions others : List Action}

theorem nil : InStep host Related kept line [] [] where
  recognition _ _ related := ⟨rfl, related, rfl⟩
  offering _ _ _ paired := ⟨rfl, paired, rfl⟩

theorem regarding_over (overlooks : OverlooksNotices Related) {session other : Session Memory}
    (paired : session.Over Related other) (result : Value) :
    (regarding session result).Over Related (regarding other result) :=
  paired.ofAlike overlooks (regarding_alike session result) (regarding_alike other result)

/-- Rows that are in step stay so behind the same action. -/
theorem cons (overlooks : OverlooksNotices Related) {action : Action}
    (acts : ActsOver host Related action) (rest : InStep host Related kept line actions others) :
    InStep host Related kept line (action :: actions) (action :: others) where
  recognition world other related := by
    unfold isRecognized recognitionQuestions
    by_cases accepted : action.accepts line.toValue
    · rw [if_pos accepted, if_pos accepted, if_pos accepted, if_pos accepted]
      obtain ⟨result, after⟩ := acts.matched line world other related
      rcases one : (action.matched host line).run world with ⟨answer, next⟩
      rcases two : (action.matched host line).run other with ⟨answer', next'⟩
      rw [one, two] at result after
      obtain rfl : answer = answer' := result
      rcases answer with failure | _ | taken
      · rw [run_bind_of_error one, run_bind_of_error two]
        exact ⟨rfl, after, rfl⟩
      · rw [run_bind_of_ok one, run_bind_of_ok two]
        obtain ⟨same, last, events⟩ := rest.recognition next next' after
        refine ⟨same, last, ?_⟩
        simp only [List.map_cons, List.filter_cons, events]
        rfl
      · rw [run_bind_of_ok one, run_bind_of_ok two]
        exact ⟨rfl, after, rfl⟩
    · rw [if_neg accepted, if_neg accepted, if_neg accepted, if_neg accepted]
      exact rest.recognition world other related
  offering progress session other paired := by
    unfold Run.offering offeringEvents
    have tried := acts.trial line paired
    generalize trial host line action session = one at tried
    generalize trial host line action other = two at tried
    cases tried with
    | passed next =>
        obtain ⟨result, last, events⟩ := rest.offering progress _ _ next
        refine ⟨result, last, ?_⟩
        rw [List.filter_append, List.filter_append, events]
    | failed failure next => exact ⟨rfl, next, rfl⟩
    | @invoked call call' events result after =>
        simp only []
        rw [events, result]
        cases call'.result with
        | error failure => exact ⟨rfl, after, rfl⟩
        | ok value =>
            simp only []
            split
            · exact ⟨rfl, after, rfl⟩
            · obtain ⟨same, last, later⟩ :=
                rest.offering (progress.after value) _ _ (regarding_over overlooks after value)
              refine ⟨same, last, ?_⟩
              simp only [List.filter_append, later]

/-- Actions that pass the line do not count, if the questions to their matchers do not. -/
theorem skip (overlooks : OverlooksNotices Related) {front : List Action}
    (passes : ∀ action ∈ front, Passes host line action)
    (silent : ∀ action ∈ front, kept (.asked action.matcher line) = false)
    (rest : InStep host Related kept line actions others) :
    InStep host Related kept line (front ++ actions) others := by
  have dropped {asked : List Event}
      (own : ∀ event ∈ asked, ∃ action ∈ front, event = .asked action.matcher line) :
      asked.filter kept = [] := by
    refine List.filter_eq_nil_iff.mpr ?_
    intro event member
    obtain ⟨action, listed, rfl⟩ := own event member
    rw [silent action listed]
    exact Bool.false_ne_true
  refine ⟨?_, ?_⟩
  · intro world other related
    obtain ⟨next, asked, alike, recognized, questions, own⟩ :=
      isRecognized_of_passes passes actions world
    obtain ⟨result, last, events⟩ :=
      rest.recognition next other (overlooks alike (.refl other) related)
    rw [recognized, questions, List.filter_append, dropped own, List.nil_append]
    exact ⟨result, last, events⟩
  · intro progress session other paired
    obtain ⟨next, asked, alike, offered, events, own⟩ :=
      offering_of_passes passes actions progress session
    obtain ⟨result, last, later⟩ :=
      rest.offering progress next other (paired.ofAlike overlooks alike (.refl other))
    rw [offered, events, List.filter_append, dropped own, List.nil_append]
    exact ⟨result, last, later⟩

theorem flip (rest : InStep host Related kept line actions others) :
    InStep host (fun first second => Related second first) kept line others actions where
  recognition world other related := by
    obtain ⟨result, last, events⟩ := rest.recognition other world related
    exact ⟨result.symm, last, events.symm⟩
  offering progress session other paired := by
    obtain ⟨result, last, events⟩ :=
      rest.offering progress other session ⟨paired.state.symm, paired.world⟩
    exact ⟨result.symm, ⟨last.state.symm, last.world⟩, events.symm⟩

theorem skip_right (overlooks : OverlooksNotices Related) {front : List Action}
    (passes : ∀ action ∈ front, Passes host line action)
    (silent : ∀ action ∈ front, kept (.asked action.matcher line) = false)
    (rest : InStep host Related kept line actions others) :
    InStep host Related kept line actions (front ++ others) :=
  have overlooks' : OverlooksNotices fun first second : World Memory => Related second first :=
    fun alike alike' related => overlooks alike' alike related
  (rest.flip.skip overlooks' passes silent).flip

/-- A row of actions that do the same in related worlds is in step with itself. -/
theorem refl (overlooks : OverlooksNotices Related)
    (acts : ∀ action ∈ actions, ActsOver host Related action) :
    InStep host Related kept line actions actions := by
  induction actions with
  | nil => exact nil
  | cons action actions ih =>
      obtain ⟨own, rest⟩ := List.forall_mem_cons.mp acts
      exact (ih rest).cons overlooks own

/-- Behind the same actions rows stay in step. -/
theorem behind (overlooks : OverlooksNotices Related) {front : List Action}
    (acts : ∀ action ∈ front, ActsOver host Related action)
    (rest : InStep host Related kept line actions others) :
    InStep host Related kept line (front ++ actions) (front ++ others) := by
  induction front with
  | nil => exact rest
  | cons action front ih =>
      obtain ⟨own, further⟩ := List.forall_mem_cons.mp acts
      exact (ih further).cons overlooks own

end InStep

section Courses

variable {kept : Event → Bool} {actions others : List Action}

/-- Whether two executions in related worlds come to the same, where only events of some kind
count. -/
structure ExecutionsOver (host : Host Memory) (Related : World Memory → World Memory → Prop)
    (kept : Event → Bool) (actions others : List Action) (first second : Execution Memory) :
    Prop where
  result : first.result = second.result
  after : first.after.Over Related second.after
  events : (first.events host actions).filter kept = (second.events host others).filter kept

/-- Whether two courses in related worlds come to the same, where only events of some kind
count. -/
structure CoursesOver (host : Host Memory) (Related : World Memory → World Memory → Prop)
    (kept : Event → Bool) (actions others : List Action) (first second : Course Memory) :
    Prop where
  result : first.result = second.result
  session : first.session.Over Related second.session
  events : (first.events host actions).filter kept = (second.events host others).filter kept

theorem CoursesOver.behind {first second : Course Memory}
    (courses : CoursesOver host Related kept actions others first second)
    {turn other : Turn Memory}
    (events : (turn.events host actions).filter kept = (other.events host others).filter kept) :
    CoursesOver host Related kept actions others (first.behind turn) (second.behind other) := by
  refine ⟨courses.result, courses.session, ?_⟩
  have later := courses.events
  unfold Course.events Course.behind at *
  rw [List.flatMap_cons, List.flatMap_cons, List.filter_append, List.filter_append, events]
  exact congrArg _ later

theorem execution_inStep (overlooks : OverlooksNotices Related) {line : Line}
    (inStep : InStep host Related kept line actions others) {session other : Session Memory}
    (paired : session.Over Related other) :
    ExecutionsOver host Related kept actions others (execution host actions line session)
      (execution host others line other) := by
  obtain ⟨result, after, events⟩ := inStep.offering .start _ _
    (paired.noting overlooks (.executing line) (.executing line))
  refine ⟨?_, after, events⟩
  rw [execution_result, execution_result, result]

theorem cleanUpCourse_inStep (overlooks : OverlooksNotices Related)
    (inStep : ∀ line, InStep host Related kept line actions others) (fault : Fault)
    {session other : Session Memory} (paired : session.Over Related other) :
    CoursesOver host Related kept actions others (cleanUpCourse host actions fault session)
      (cleanUpCourse host others fault other) := by
  obtain ⟨result, after, events⟩ := execution_inStep overlooks (inStep finishLine) paired
  have turns : (Course.events host actions (cleanUpCourse host actions fault session)).filter kept =
      (Course.events host others (cleanUpCourse host others fault other)).filter kept := by
    unfold Course.events
    rw [cleanUpCourse_turns, cleanUpCourse_turns, List.flatMap_singleton, List.flatMap_singleton]
    exact events
  refine ⟨?_, ?_, turns⟩
  all_goals
    change (cleanUpTurn host actions session).result = (cleanUpTurn host others other).result
      at result
    unfold cleanUpCourse
    simp only [result]
    split
  · rfl
  · rfl
  · rfl
  · exact after
  · exact after.noting overlooks .finishFailed .finishFailed
  · exact after

theorem failureCourse_inStep (overlooks : OverlooksNotices Related)
    (inStep : ∀ line, InStep host Related kept line actions others) (finishStarted : Bool)
    (failure : Failure) {session other : Session Memory} (paired : session.Over Related other) :
    CoursesOver host Related kept actions others
      (failureCourse host actions finishStarted failure session)
      (failureCourse host others finishStarted failure other) := by
  unfold failureCourse
  split
  · exact cleanUpCourse_inStep overlooks inStep _ paired
  · exact ⟨rfl, paired, rfl⟩

/-- Courses of the same lines with actions that are in step come to the same. -/
theorem course_inStep (overlooks : OverlooksNotices Related)
    (inStep : ∀ line, InStep host Related kept line actions others) (fuel : Nat)
    (queue : List Line) (started : Bool) {session other : Session Memory}
    (paired : session.Over Related other) :
    CoursesOver host Related kept actions others (course host actions fuel queue started session)
      (course host others fuel queue started other) := by
  induction fuel generalizing queue started session other with
  | zero => cases queue <;> exact ⟨rfl, paired, rfl⟩
  | succ fuel ih =>
      cases queue with
      | nil => exact ⟨rfl, paired, rfl⟩
      | cons line queue =>
          obtain ⟨result, after, events⟩ : ExecutionsOver host Related kept actions others
              (turnOf host actions line queue session).toExecution
              (turnOf host others line queue other).toExecution :=
            execution_inStep overlooks (inStep line) (paired.withLine line)
          cases done : (turnOf host actions line queue session).result with
          | ok outcome =>
              rw [course_cons_of_ok done, course_cons_of_ok (result.symm.trans done)]
              exact (ih _ _ after.withoutLine).behind events
          | error failure =>
              rw [course_cons_of_error done, course_cons_of_error (result.symm.trans done)]
              have rest := failureCourse_inStep overlooks inStep
                (started || line == finishLine) failure after.withoutLine
              exact rest.behind events

theorem runCourse_inStep (overlooks : OverlooksNotices Related)
    (inStep : ∀ line, InStep host Related kept line actions others) (fuel : Nat)
    (lines : List Line) {session other : Session Memory} (paired : session.Over Related other) :
    CoursesOver host Related kept actions others (runCourse host fuel actions lines session)
      (runCourse host fuel others lines other) := by
  refine course_inStep overlooks inStep fuel _ false ?_
  have opened : ({ session with state := session.state.put State.engineName .engine } :
      Session Memory).Over Related
        { other with state := other.state.put State.engineName .engine } :=
    ⟨congrArg (Entries.put · _ _) paired.state, paired.world⟩
  exact opened.noting overlooks _ _

/-- Whether two inspections in related worlds come to the same. -/
structure InspectionsOver (host : Host Memory) (Related : World Memory → World Memory → Prop)
    (kept : Event → Bool) (actions others : List Action) (lines : List (Nat × Line))
    (world other : World Memory) : Prop where
  result : ((diagnostics host actions lines).run world).1 =
    ((diagnostics host others lines).run other).1
  after : Related ((diagnostics host actions lines).run world).2
    ((diagnostics host others lines).run other).2
  events : ((inspectionQuestions host actions lines world).map Question.event).filter kept =
    ((inspectionQuestions host others lines other).map Question.event).filter kept

theorem diagnostics_inStep (overlooks : OverlooksNotices Related)
    (inStep : ∀ line, InStep host Related kept line actions others) (lines : List (Nat × Line))
    {world other : World Memory} (related : Related world other) :
    InspectionsOver host Related kept actions others lines world other := by
  induction lines generalizing world other with
  | nil => exact ⟨rfl, related, rfl⟩
  | cons head lines ih =>
      obtain ⟨number, content | mark⟩ := head
      · obtain ⟨same, after, asked⟩ := (inStep (.text content)).recognition world other related
        rcases one : (isRecognized host (.text content) actions).run world with ⟨answer, next⟩
        rcases two : (isRecognized host (.text content) others).run other with ⟨answer', next'⟩
        rw [one, two] at same after
        obtain rfl : answer = answer' := same
        have step := diagnostics_text one number lines
        have step' := diagnostics_text two number lines
        have questions := inspectionQuestions_text one number lines
        have questions' := inspectionQuestions_text two number lines
        rcases answer with failure | _ | _
        · refine ⟨?_, ?_, ?_⟩
          · rw [step, step']
          · rw [step, step']
            exact after
          · rw [questions, questions', List.append_nil, List.append_nil, asked]
        · obtain ⟨result, last, further⟩ :=
            ih (overlooks (.noting_left _ _) (.noting_left _ _) after)
          refine ⟨?_, ?_, ?_⟩
          · rw [step, step']
            exact congrArg (Except.map _) result
          · rw [step, step']
            exact last
          · rw [questions, questions', List.map_append, List.map_append, List.filter_append,
              List.filter_append, asked]
            exact congrArg _ further
        · obtain ⟨result, last, further⟩ := ih after
          refine ⟨?_, ?_, ?_⟩
          · rw [step, step']
            exact result
          · rw [step, step']
            exact last
          · rw [questions, questions', List.map_append, List.map_append, List.filter_append,
              List.filter_append, asked]
            exact congrArg _ further
      · obtain ⟨result, last, further⟩ := ih related
        exact ⟨result, last, further⟩

end Courses

section Runs

variable {kept : Event → Bool} {actions others : List Action} {fuel : Nat} {source : Value}

/-- Whether runs of a script in two sessions have the same result, leave the same state, and have
the same events of some kind. -/
structure RunsAgree (host : Host Memory) (kept : Event → Bool) (fuel : Nat) (source : Value)
    (session other : Session Memory) : Prop where
  result : ((script host fuel source).run session).1 = ((script host fuel source).run other).1
  state : ((script host fuel source).run session).2.state =
    ((script host fuel source).run other).2.state
  events : (runEvents host fuel source session).filter kept =
    (runEvents host fuel source other).filter kept

theorem runEvents_of_refused {session : Session Memory} {failure : Failure} {world : World Memory}
    (refused : (approve host fuel source).run session.world = (.error failure, world)) :
    runEvents host fuel source session =
      (approvalQuestions host fuel source session.world).map Question.event := by
  unfold runEvents
  rw [refused]
  exact List.append_nil _

theorem runEvents_of_approved {session : Session Memory} {lines : List Line} {world : World Memory}
    (approved : (approve host fuel source).run session.world = (.ok (actions, lines), world)) :
    runEvents host fuel source session =
      (approvalQuestions host fuel source session.world).map Question.event ++
        (runCourse host fuel actions lines (session.inWorld world)).events host actions := by
  unfold runEvents
  rw [approved]

/-- Scripts that are refused with the same failure agree. -/
theorem runsAgree_of_refused {session other : Session Memory} {failure : Failure}
    {world world' : World Memory} (state : session.state = other.state)
    (refused : (approve host fuel source).run session.world = (.error failure, world))
    (refused' : (approve host fuel source).run other.world = (.error failure, world'))
    (asked : ((approvalQuestions host fuel source session.world).map Question.event).filter kept =
      ((approvalQuestions host fuel source other.world).map Question.event).filter kept) :
    RunsAgree host kept fuel source session other := by
  refine ⟨?_, ?_, ?_⟩
  · rw [script_run_of_refused refused, script_run_of_refused refused']
  · rw [script_run_of_refused refused, script_run_of_refused refused']
    exact state
  · rw [runEvents_of_refused refused, runEvents_of_refused refused']
    exact asked

/-- Nothing is asked about a script that cannot be read. -/
theorem approvalQuestions_of_unread {start listed : World Memory} {failure : Failure}
    (unread : (scriptLines host fuel source).run start = (.error failure, listed)) :
    approvalQuestions host fuel source start = [] := by
  unfold approvalQuestions
  rw [unread]

/-- Nothing is asked if the engine cannot be prepared. -/
theorem approvalQuestions_of_unprepared {start listed ready : World Memory}
    {lines : List (Nat × Line)} {failure : Failure}
    (read : (scriptLines host fuel source).run start = (.ok lines, listed))
    (unprepared : (Engine.prepare host fuel).run listed = (.error failure, ready)) :
    approvalQuestions host fuel source start = [] := by
  unfold approvalQuestions
  rw [read]
  simp only []
  rw [unprepared]

theorem runsAgree_of_unread {session other : Session Memory} {failure : Failure}
    {listed listed' : World Memory} (state : session.state = other.state)
    (unread : (scriptLines host fuel source).run session.world = (.error failure, listed))
    (unread' : (scriptLines host fuel source).run other.world = (.error failure, listed')) :
    RunsAgree host kept fuel source session other := by
  refine runsAgree_of_refused state (approve_run_of_unread unread)
    (approve_run_of_unread unread') ?_
  rw [approvalQuestions_of_unread unread, approvalQuestions_of_unread unread']

theorem runsAgree_of_unprepared {session other : Session Memory} {failure : Failure}
    {listed listed' ready ready' : World Memory} {lines : List (Nat × Line)}
    (state : session.state = other.state)
    (read : (scriptLines host fuel source).run session.world = (.ok lines, listed))
    (read' : (scriptLines host fuel source).run other.world = (.ok lines, listed'))
    (unprepared : (Engine.prepare host fuel).run listed = (.error failure, ready))
    (unprepared' : (Engine.prepare host fuel).run listed' = (.error failure, ready')) :
    RunsAgree host kept fuel source session other := by
  refine runsAgree_of_refused state (approve_run_of_unprepared read unprepared)
    (approve_run_of_unprepared read' unprepared') ?_
  rw [approvalQuestions_of_unprepared read unprepared,
    approvalQuestions_of_unprepared read' unprepared']

/-- Scripts that are approved with the same lines, and with actions that are in step, agree. -/
theorem runsAgree_of_approved (overlooks : OverlooksNotices Related)
    (inStep : ∀ line, InStep host Related kept line actions others)
    {session other : Session Memory} {lines : List Line} {world world' : World Memory}
    (state : session.state = other.state) (related : Related world world')
    (approved : (approve host fuel source).run session.world = (.ok (actions, lines), world))
    (approved' : (approve host fuel source).run other.world = (.ok (others, lines), world'))
    (asked : ((approvalQuestions host fuel source session.world).map Question.event).filter kept =
      ((approvalQuestions host fuel source other.world).map Question.event).filter kept) :
    RunsAgree host kept fuel source session other ∧
      Related ((script host fuel source).run session).2.world
        ((script host fuel source).run other).2.world := by
  have paired : (session.inWorld world).Over Related (other.inWorld world') := ⟨state, related⟩
  obtain ⟨result, last, events⟩ := runCourse_inStep overlooks inStep fuel lines paired
  have run := script_run_of_approved approved
  have run' := script_run_of_approved approved'
  refine ⟨⟨?_, ?_, ?_⟩, ?_⟩
  · rw [run, run']
    exact result
  · rw [run, run']
    exact congrArg State.withoutTransient last.state
  · rw [runEvents_of_approved approved, runEvents_of_approved approved', List.filter_append,
      List.filter_append, asked, events]
  · rw [run, run']
    exact last.world

/-- Runs of a script that has been read alike, with actions that are in step, agree, and leave
worlds that are related. -/
theorem script_inStep (overlooks : OverlooksNotices Related)
    (inStep : ∀ line, InStep host Related kept line actions others)
    {session other : Session Memory} (state : session.state = other.state)
    {listed listed' ready ready' : World Memory} {lines : List (Nat × Line)}
    (read : (scriptLines host fuel source).run session.world = (.ok lines, listed))
    (read' : (scriptLines host fuel source).run other.world = (.ok lines, listed'))
    (prepared : (Engine.prepare host fuel).run listed = (.ok actions, ready))
    (prepared' : (Engine.prepare host fuel).run listed' = (.ok others, ready'))
    (related : Related ready ready') :
    RunsAgree host kept fuel source session other ∧
      Related ((script host fuel source).run session).2.world
        ((script host fuel source).run other).2.world := by
  obtain ⟨result, after, asked⟩ :=
    diagnostics_inStep overlooks inStep (Script.beforeFinish lines) related
  have approved := approve_of_prepared read prepared
  have approved' := approve_of_prepared read' prepared'
  rw [← approvalQuestions_of_prepared read prepared,
    ← approvalQuestions_of_prepared read' prepared'] at asked
  rcases one : (diagnostics host actions (Script.beforeFinish lines)).run ready with
    ⟨outcome, last⟩
  rcases two : (diagnostics host others (Script.beforeFinish lines)).run ready' with
    ⟨outcome', last'⟩
  rw [one] at approved
  rw [two] at approved'
  rw [one, two] at result after
  obtain rfl : outcome = outcome' := result
  rcases outcome with failure | _ | ⟨first, found⟩
  · refine ⟨runsAgree_of_refused state approved approved' asked, ?_⟩
    rw [script_run_of_refused approved, script_run_of_refused approved']
    exact after
  · exact runsAgree_of_approved overlooks inStep state after approved approved' asked
  · refine ⟨runsAgree_of_refused state approved approved' asked, ?_⟩
    rw [script_run_of_refused approved, script_run_of_refused approved']
    exact after

end Runs

end Run

end LineScript
