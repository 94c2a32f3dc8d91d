import LineScript.Proofs.Run.Approval
import LineScript.Proofs.Run.Handing

/-!
# Lines that are recognized twice

The lines of a script are recognized before the script is executed, and each line is recognized once
more when it is executed. In between handlers may change the engine and the memory of the host, but
the actions of the run are fixed, and only they are asked. So, when an action answers equal
questions alike, a line of the script that has been approved is recognized again: one that fails for
want of an action has come out of a replacement (`LineScript.Run.script_late_check`).
-/

namespace LineScript.Run

variable {Memory : Type} {host : Host Memory} {actions : List Action}

/-- A question to an action whether it matches a line, in the world in which it is asked. -/
structure Question (Memory : Type) where
  action : Action
  line : Line
  world : World Memory

/-- The answer to a question. -/
def Question.answer (host : Host Memory) (question : Question Memory) :
    Except Failure (Option (List Value)) :=
  ((question.action.matched host question.line).run question.world).1

/-- The questions about a line before it is recognized. -/
def recognitionQuestions (host : Host Memory) (line : Line) :
    List Action → World Memory → List (Question Memory)
  | [], _ => []
  | action :: others, world =>
    if action.accepts line.toValue then
      ⟨action, line, world⟩ ::
        match (action.matched host line).run world with
        | (.ok none, world) => recognitionQuestions host line others world
        | _ => []
    else recognitionQuestions host line others world

/-- The questions in the inspection of some lines. -/
def inspectionQuestions (host : Host Memory) (actions : List Action) :
    List (Nat × Line) → World Memory → List (Question Memory)
  | [], _ => []
  | (number, line) :: others, world =>
    (match line with
      | .text _ => recognitionQuestions host line actions world
      | .sentinel _ => []) ++
    match (diagnostics host actions [(number, line)]).run world with
    | (.ok _, world) => inspectionQuestions host actions others world
    | _ => []

/-- The questions in the approval of a script. -/
def approvalQuestions (host : Host Memory) (fuel : Nat) (source : Value) (start : World Memory) :
    List (Question Memory) :=
  match (scriptLines host fuel source).run start with
  | (.ok lines, world) =>
    match (Engine.prepare host fuel).run world with
    | (.ok actions, world) => inspectionQuestions host actions (Script.beforeFinish lines) world
    | _ => []
  | _ => []

/-- The questions while a line is offered to actions. -/
def offeringQuestions (host : Host Memory) (line : Line) :
    List Action → Session Memory → List (Question Memory)
  | [], _ => []
  | action :: others, session =>
    (if action.accepts line.toValue then [⟨action, line, session.world⟩] else []) ++
    match trial host line action session with
    | .passed session => offeringQuestions host line others session
    | .failed _ _ => []
    | .invoked call =>
      match call.result with
      | .error _ => []
      | .ok result =>
        if endsLine result then []
        else offeringQuestions host line others (regarding call.after result)

/-- The questions in an execution. -/
def Execution.questions (host : Host Memory) (actions : List Action)
    (executed : Execution Memory) : List (Question Memory) :=
  offeringQuestions host executed.line actions (executed.session.noting (.executing executed.line))

/-- Whether each action answers all of some questions about the same line alike. -/
def AnswersAlike (host : Host Memory) (actions : List Action)
    (questions : List (Question Memory)) : Prop :=
  ∀ action ∈ actions, ∀ line, ∃ answer, ∀ question ∈ questions,
    question.action = action → question.line = line → question.answer host = answer

/-- Whether an execution fails by its own check: its line is offered to all actions without a
failure, and then fails because none has recognized it. -/
def Execution.FailsCheck (host : Host Memory) (actions : List Action)
    (executed : Execution Memory) : Prop :=
  ∃ progress fault,
    (offering host executed.line actions .start
      (executed.session.noting (.executing executed.line))).result = .ok progress ∧
    outcome executed.line progress = .error fault

theorem exists_question_of_recognized {line : Line} {world last : World Memory}
    (recognized : (isRecognized host line actions).run world = (.ok true, last)) :
    ∃ question ∈ recognitionQuestions host line actions world,
      question.action ∈ actions ∧ question.action.accepts line.toValue = true ∧
        question.line = line ∧ ∃ taken, question.answer host = .ok (some taken) := by
  induction actions generalizing world with
  | nil => cases recognized
  | cons action others ih =>
      unfold isRecognized at recognized
      unfold recognitionQuestions
      by_cases accepted : action.accepts line.toValue
      · rw [if_pos accepted] at recognized ⊢
        rcases asked : (action.matched host line).run world with ⟨failure | _ | taken, after⟩
        · rw [run_bind_of_error asked] at recognized
          cases recognized
        · rw [run_bind_of_ok asked] at recognized
          obtain ⟨question, member, own, rest⟩ := ih recognized
          exact ⟨question, List.mem_cons_of_mem _ member, List.mem_cons_of_mem action own, rest⟩
        · refine ⟨_, List.mem_cons_self, List.mem_cons_self, accepted, rfl, taken, ?_⟩
          unfold Question.answer
          rw [asked]
      · rw [if_neg accepted] at recognized ⊢
        obtain ⟨question, member, own, rest⟩ := ih recognized
        exact ⟨question, member, List.mem_cons_of_mem action own, rest⟩

theorem diagnostics_of_recognized {content : String} {world next : World Memory}
    (recognized : (isRecognized host (.text content) actions).run world = (.ok true, next))
    (number : Nat) (others : List (Nat × Line)) :
    (diagnostics host actions ((number, .text content) :: others)).run world =
      (diagnostics host actions others).run next := by
  rw [diagnostics, run_bind_of_ok recognized]
  rfl

/-- When the inspection of some lines finds nothing, the first line is recognized if it is a text,
and then the inspection goes on with the others. -/
theorem diagnostics_cons_run {number : Nat} {line : Line} {others : List (Nat × Line)}
    {world last : World Memory}
    (found : (diagnostics host actions ((number, line) :: others)).run world = (.ok [], last)) :
    ∃ next, (diagnostics host actions [(number, line)]).run world = (.ok [], next) ∧
      (diagnostics host actions others).run next = (.ok [], last) ∧
      ∀ content, line = .text content →
        (isRecognized host line actions).run world = (.ok true, next) := by
  cases line with
  | sentinel mark =>
      refine ⟨world, rfl, found, ?_⟩
      intro content text
      cases text
  | text content =>
      rcases recognized : (isRecognized host (.text content) actions).run world with
        ⟨failure | _ | _, next⟩
      · rw [diagnostics, run_bind_of_error recognized] at found
        cases found
      · rw [diagnostics, run_bind_of_ok recognized] at found
        simp only [Bool.false_eq_true, ↓reduceIte] at found
        rw [run_bind_of_ok (Query.run_note _ next)] at found
        rcases rest : (diagnostics host actions others).run
          (next.noting (.unrecognized number (.text content))) with ⟨failure | lines, final⟩
        · rw [run_bind_of_error rest] at found
          cases found
        · rw [run_bind_of_ok rest] at found
          cases found
      · rw [diagnostics_of_recognized recognized] at found ⊢
        exact ⟨next, rfl, found, fun _ _ => rfl⟩

/-- When the inspection of some lines finds nothing, an action has been asked about each text line
and has matched it. -/
theorem exists_question_of_inspected {lines : List (Nat × Line)} {world last : World Memory}
    (found : (diagnostics host actions lines).run world = (.ok [], last)) {content : String}
    (member : Line.text content ∈ lines.map Prod.snd) :
    ∃ question ∈ inspectionQuestions host actions lines world,
      question.action ∈ actions ∧ question.action.accepts (Line.text content).toValue = true ∧
        question.line = .text content ∧ ∃ taken, question.answer host = .ok (some taken) := by
  induction lines generalizing world with
  | nil => cases member
  | cons head others ih =>
      obtain ⟨number, line⟩ := head
      obtain ⟨next, first, rest, recognized⟩ := diagnostics_cons_run found
      unfold inspectionQuestions
      rw [first]
      rcases List.mem_cons.mp member with rfl | later
      · obtain ⟨question, asked, answered⟩ :=
          exists_question_of_recognized (recognized content rfl)
        exact ⟨question, List.mem_append_left _ asked, answered⟩
      · obtain ⟨question, asked, answered⟩ := ih rest later
        exact ⟨question, List.mem_append_right _ asked, answered⟩

/-- In the approval of a script an action has been asked about each text line and has matched it. -/
theorem exists_question_of_approved {fuel : Nat} {source : Value} {start world : World Memory}
    {lines : List Line}
    (approved : (approve host fuel source).run start = (.ok (actions, lines), world))
    {content : String} (member : Line.text content ∈ lines) :
    ∃ question ∈ approvalQuestions host fuel source start,
      question.action ∈ actions ∧ question.action.accepts (Line.text content).toValue = true ∧
        question.line = .text content ∧ ∃ taken, question.answer host = .ok (some taken) := by
  unfold approve at approved
  unfold approvalQuestions
  rcases listed : (scriptLines host fuel source).run start with ⟨failure | numbered, listing⟩
  · rw [run_bind_of_error listed] at approved
    cases approved
  · rw [run_bind_of_ok listed] at approved
    simp only []
    rcases prepared : (Engine.prepare host fuel).run listing with ⟨failure | resolved, ready⟩
    · rw [run_bind_of_error prepared] at approved
      cases approved
    · rw [run_bind_of_ok prepared] at approved
      simp only []
      rcases inspection : (diagnostics host resolved (Script.beforeFinish numbered)).run ready with
        ⟨failure | found, last⟩
      · have failed : (preflight host resolved (Script.beforeFinish numbered)).run ready =
            (.error failure, last) := by
          unfold preflight
          exact run_bind_of_error inspection
        rw [run_bind_of_error failed] at approved
        cases approved
      · have checked := preflight_run inspection
        by_cases clean : found = []
        · rw [if_pos clean] at checked
          rw [run_bind_of_ok checked] at approved
          cases approved
          rw [clean] at inspection
          exact exists_question_of_inspected inspection member
        · rw [if_neg clean] at checked
          rw [run_bind_of_error checked] at approved
          cases approved

/-- A line that has been recognized remains recognized. -/
theorem Offers.recognized {line : Line} {progress last : LineProgress} {session : Session Memory}
    {offered : Offering Memory} (offers : Offers host line actions progress session offered)
    (known : progress.recognized = true) (finished : offered.result = .ok last) :
    last.recognized = true := by
  induction offers with
  | nil progress session =>
      cases finished
      exact known
  | passed _ _ ih => exact ih known finished
  | failed _ => cases finished
  | raised _ _ => cases finished
  | ended _ _ _ =>
      cases finished
      rfl
  | returned _ _ _ _ ih => exact ih rfl finished

/-- An action that accepts a line and passes it has been asked, and has not matched. -/
theorem answer_of_passed {line : Line} {action : Action} {session next : Session Memory}
    (passed : trial host line action session = .passed next)
    (accepted : action.accepts line.toValue = true) :
    Question.answer host ⟨action, line, session.world⟩ = .ok none := by
  unfold trial at passed
  rw [if_pos accepted] at passed
  unfold Question.answer
  rcases asked : (action.matched host line).run session.world with ⟨failure | _ | taken, world⟩
  · rw [asked] at passed
    cases passed
  · rfl
  · rw [asked] at passed
    cases given : argumentsFor action line taken session.state with
    | error fault =>
        simp only [given] at passed
        cases passed
    | ok arguments =>
        simp only [given] at passed
        cases passed

/-- When a line has not been recognized in the end, all actions that accept it have been asked and
have not matched it. -/
theorem Offers.exists_question {line : Line} {progress last : LineProgress}
    {session : Session Memory} {offered : Offering Memory}
    (offers : Offers host line actions progress session offered)
    (finished : offered.result = .ok last) (unrecognized : last.recognized = false)
    {action : Action} (member : action ∈ actions)
    (accepted : action.accepts line.toValue = true) :
    ∃ question ∈ offeringQuestions host line actions session,
      question.action = action ∧ question.line = line ∧ question.answer host = .ok none := by
  induction offers with
  | nil progress session => cases member
  | passed tried _ ih =>
      unfold offeringQuestions
      rw [tried]
      rcases List.mem_cons.mp member with rfl | later
      · rw [if_pos accepted]
        exact ⟨_, List.mem_append_left _ List.mem_cons_self, rfl, rfl,
          answer_of_passed tried accepted⟩
      · obtain ⟨question, asked, answered⟩ := ih finished later
        exact ⟨question, List.mem_append_right _ asked, answered⟩
  | failed _ => cases finished
  | raised _ _ => cases finished
  | ended _ _ _ =>
      cases finished
      cases unrecognized
  | returned _ _ _ rest _ =>
      rw [rest.recognized rfl finished] at unrecognized
      cases unrecognized

theorem replacement_after {progress : LineProgress} {value : Value} {replacement : Replacement}
    (known : (progress.after value).replacement = some replacement) :
    progress.replacement = some replacement ∨ Replacement.ofValue? value = some replacement := by
  unfold LineProgress.after at known
  rcases Option.or_eq_some_iff.mp known with before | ⟨-, own⟩
  · exact Or.inl before
  · exact Or.inr own

/-- The replacement that is known in the end is a result of one of the handlers, unless it was known
before. -/
theorem Offers.replacement {line : Line} {progress last : LineProgress} {session : Session Memory}
    {offered : Offering Memory} {replacement : Replacement}
    (offers : Offers host line actions progress session offered)
    (finished : offered.result = .ok last) (known : last.replacement = some replacement) :
    progress.replacement = some replacement ∨
      ∃ call ∈ offered.invocations, ∃ value,
        call.result = .ok value ∧ Replacement.ofValue? value = some replacement := by
  induction offers with
  | nil progress session =>
      cases finished
      exact Or.inl known
  | passed _ _ ih => exact ih finished
  | failed _ => cases finished
  | raised _ _ => cases finished
  | ended _ called _ =>
      cases finished
      rcases replacement_after known with before | own
      · exact Or.inl before
      · exact Or.inr ⟨_, List.mem_cons_self, _, called, own⟩
  | returned _ called _ _ ih =>
      rcases ih finished with after | ⟨other, member, made⟩
      · rcases replacement_after after with before | own
        · exact Or.inl before
        · exact Or.inr ⟨_, List.mem_cons_self, _, called, own⟩
      · exact Or.inr ⟨other, List.mem_cons_of_mem _ member, made⟩

theorem of_outcome_rewrite {line : Line} {progress : LineProgress} {lines : List Line}
    (rewritten : outcome line progress = .ok (.rewrite lines)) :
    ∃ replacement, progress.replacement = some replacement ∧ lines = replacement.lines := by
  unfold outcome at rewritten
  split at rewritten
  all_goals try cases rewritten
  · rename_i replacement content _ _ known
    exact ⟨replacement, known, rfl⟩
  · split at rewritten <;> cases rewritten

/-- The lines that an execution puts in the place of its own are those of a result of one of the
handlers. -/
theorem execution_rewrite {line : Line} {session : Session Memory} {lines : List Line}
    (rewritten : (execution host actions line session).result = .ok (.rewrite lines)) :
    ∃ call ∈ (execution host actions line session).invocations, ∃ value replacement,
      call.result = .ok value ∧ Replacement.ofValue? value = some replacement ∧
        lines = replacement.lines := by
  rw [execution_result] at rewritten
  cases offered :
      (offering host line actions .start (session.noting (.executing line))).result with
  | error failure =>
      rw [offered] at rewritten
      cases rewritten
  | ok progress =>
      rw [offered] at rewritten
      simp only [Except.bind] at rewritten
      cases ended : outcome line progress with
      | error fault =>
          rw [ended] at rewritten
          cases rewritten
      | ok outcome =>
          rw [ended] at rewritten
          cases rewritten
          obtain ⟨replacement, known, rfl⟩ := of_outcome_rewrite ended
          rcases (offering_offers host line actions .start _).replacement offered known with
            none | ⟨call, member, value, made⟩
          · cases none
          · exact ⟨call, member, value, replacement, made.1, made.2, rfl⟩

theorem mem_queueAfter {outcome : LineOutcome} {queue : List Line} {started : Bool} {line : Line}
    (member : line ∈ queueAfter outcome queue started) :
    line ∈ queue ∨ line = finishLine ∨ ∃ lines, outcome = .rewrite lines ∧ line ∈ lines := by
  cases outcome with
  | proceed => exact Or.inl member
  | stopLine => exact Or.inl member
  | rewrite lines =>
      rcases List.mem_append.mp member with own | other
      · exact Or.inr (Or.inr ⟨lines, rfl, own⟩)
      · exact Or.inl other
  | stopScript =>
      cases started with
      | true => cases member
      | false => exact Or.inr (Or.inl (List.mem_singleton.mp member))

/-- The line of each turn stands in the queue, is FINISH, or has come out of an earlier turn. -/
theorem course_line_origin {fuel : Nat} {queue : List Line} {started : Bool}
    {session : Session Memory} {front back : List (Turn Memory)} {turn : Turn Memory}
    (turns : (course host actions fuel queue started session).turns = front ++ turn :: back) :
    turn.line ∈ queue ∨ turn.line = finishLine ∨
      ∃ earlier ∈ front, ∃ lines, earlier.result = .ok (.rewrite lines) ∧ turn.line ∈ lines := by
  have absent (others : List (Turn Memory)) : others ++ turn :: back ≠ [] :=
    List.append_ne_nil_of_right_ne_nil others (List.cons_ne_nil turn back)
  induction fuel generalizing queue started session front with
  | zero => cases queue <;> exact absurd turns.symm (absent front)
  | succ fuel ih =>
      cases queue with
      | nil => exact absurd turns.symm (absent front)
      | cons line queue =>
          cases front with
          | nil =>
              obtain ⟨others, first⟩ :=
                course_cons_turns host actions fuel line queue started session
              rw [first] at turns
              obtain ⟨rfl, -⟩ := List.cons.inj turns
              exact Or.inl List.mem_cons_self
          | cons first front =>
              cases finished : (turnOf host actions line queue session).result with
              | ok outcome =>
                  rw [course_cons_of_ok finished] at turns
                  obtain ⟨rfl, others⟩ := List.cons.inj turns
                  rcases ih others with waiting | finish | ⟨earlier, member, made⟩
                  · rcases mem_queueAfter waiting with own | finish | ⟨lines, rfl, own⟩
                    · exact Or.inl (List.mem_cons_of_mem line own)
                    · exact Or.inr (Or.inl finish)
                    · exact Or.inr (Or.inr ⟨_, List.mem_cons_self, lines, finished, own⟩)
                  · exact Or.inr (Or.inl finish)
                  · exact Or.inr (Or.inr ⟨earlier, List.mem_cons_of_mem _ member, made⟩)
              | error failure =>
                  rw [course_cons_of_error finished] at turns
                  obtain ⟨rfl, others⟩ := List.cons.inj turns
                  obtain ⟨rfl, -, fault, -, cleanup⟩ := failureCourse_turns others
                  have rows := congrArg Course.turns cleanup
                  rw [cleanUpCourse_turns] at rows
                  obtain ⟨rfl, -⟩ := List.cons.inj rows
                  exact Or.inr (Or.inl rfl)

/-- A text line that an action has matched in the approval of a script does not fail by the check of
its execution, as long as each action answers equal questions alike. -/
theorem not_failsCheck_of_recognized {questions : List (Question Memory)} {content : String}
    {executed : Execution Memory} (alike : AnswersAlike host actions questions)
    (asked : ∃ question ∈ questions,
      question.action ∈ actions ∧ question.action.accepts (Line.text content).toValue = true ∧
        question.line = .text content ∧ ∃ taken, question.answer host = .ok (some taken))
    (subset : executed.questions host actions ⊆ questions) (text : executed.line = .text content) :
    ¬executed.FailsCheck host actions := by
  rintro ⟨progress, fault, offered, failed⟩
  obtain ⟨-, -, -, unrecognized⟩ := outcome_error failed
  obtain ⟨first, member, own, accepted, line, taken, matched⟩ := asked
  rw [← text] at accepted
  obtain ⟨second, asked, same, line', unmatched⟩ :=
    (offering_offers host executed.line actions .start _).exists_question offered unrecognized own
      accepted
  obtain ⟨answer, alike⟩ := alike first.action own (.text content)
  have one := alike first member rfl line
  have other := alike second (subset asked) same (line'.trans text)
  rw [matched] at one
  rw [unmatched, ← one] at other
  cases other

/-- The questions of a run: those of its approval, and those of its turns. -/
def runQuestions (host : Host Memory) (fuel : Nat) (source : Value) (actions : List Action)
    (lines : List Line) (session : Session Memory) (world : World Memory) :
    List (Question Memory) :=
  approvalQuestions host fuel source session.world ++
    (runCourse host fuel actions lines (session.inWorld world)).turns.flatMap fun turn =>
      turn.questions host actions

/-- Approval and execution agree. A run comes to its course. As long as each action answers equal
questions of the run alike, whatever else handlers do, a line of the course that fails because no
action recognizes it when it is executed is no line of the approved script: it is one of the lines
of a replacement, which a handler has returned earlier in the run. -/
theorem script_late_check {fuel : Nat} {source : Value} {session : Session Memory}
    {lines : List Line} {world : World Memory} {front back : List (Turn Memory)}
    {turn : Turn Memory}
    (approved : (approve host fuel source).run session.world = (.ok (actions, lines), world))
    (alike : AnswersAlike host actions
      (runQuestions host fuel source actions lines session world))
    (turns : (runCourse host fuel actions lines (session.inWorld world)).turns =
      front ++ turn :: back)
    (failed : turn.FailsCheck host actions) :
    (script host fuel source).run session =
        ((runCourse host fuel actions lines (session.inWorld world)).result,
          closing (runCourse host fuel actions lines (session.inWorld world)).session) ∧
    ∃ content, turn.line = .text content ∧
      turn.result = .error (.fault (.script (.unrecognizedLine content))) ∧
      Line.text content ∉ lines ∧
      ∃ earlier ∈ front, ∃ call ∈ earlier.invocations, ∃ value replacement,
        call.result = .ok value ∧ Replacement.ofValue? value = some replacement ∧
          Line.text content ∈ replacement.lines := by
  have follows := course_follows host actions fuel (lines ++ [finishLine]) false
    (opening actions (session.inWorld world))
  have taken : turn ∈ (runCourse host fuel actions lines (session.inWorld world)).turns := by
    rw [turns]
    exact List.mem_append_right front List.mem_cons_self
  obtain ⟨progress, fault, offered, ended⟩ := failed
  obtain ⟨content, text, rfl, -⟩ := outcome_error ended
  have result : turn.result = .error (.fault (.script (.unrecognizedLine content))) := by
    rw [follows.toExecution_eq taken, execution_result, offered]
    simp only [Except.bind, ended]
    rfl
  have unlisted : Line.text content ∉ lines := by
    intro listed
    obtain ⟨question, asked, matched⟩ := exists_question_of_approved approved listed
    apply not_failsCheck_of_recognized alike
      ⟨question, List.mem_append_left _ asked, matched⟩ ?_ text ⟨progress, _, offered, ended⟩
    intro other member
    exact List.mem_append_right _ (List.mem_flatMap.mpr ⟨turn, taken, member⟩)
  refine ⟨script_run_of_approved approved, content, text, result, unlisted, ?_⟩
  rcases course_line_origin turns with queued | finish | ⟨earlier, member, others, rewritten, own⟩
  · rw [text] at queued
    rcases List.mem_append.mp queued with listed | finish
    · exact absurd listed unlisted
    · cases List.mem_singleton.mp finish
  · rw [text] at finish
    cases finish
  · have before : earlier ∈ (runCourse host fuel actions lines (session.inWorld world)).turns := by
      rw [turns]
      exact List.mem_append_left _ member
    have executed := follows.toExecution_eq before
    rw [executed] at rewritten
    obtain ⟨call, called, value, replacement, returned, made, rfl⟩ := execution_rewrite rewritten
    rw [← executed] at called
    rw [text] at own
    exact ⟨earlier, member, call, called, value, replacement, returned, made, own⟩

/-- An action by which `macro` expands to a line that no action matches. -/
def ghosting : List Action :=
  [.ofName "macro" (.line (.text "ghost")) false]

theorem answersAlike_ghosting (questions : List (Question Unit)) :
    AnswersAlike Host.ofNames ghosting questions := by
  intro action member line
  obtain rfl := List.mem_singleton.mp member
  refine ⟨.ok (if line = .text "macro" then some [] else none), ?_⟩
  rintro question - own rfl
  unfold Question.answer
  rw [own, matched_ofName]

/-- The line that the macro has expanded to fails, and the macro is no such line. -/
theorem script_late_check_ghosting :
    ∃ front turn back,
      (runCourse Host.ofNames 5 ghosting [.text "macro"] (Session.ofActions ghosting)).turns =
        front ++ turn :: back ∧
      turn.result = .error (.fault (.script (.unrecognizedLine "ghost"))) ∧
      ∃ earlier ∈ front, ∃ call ∈ earlier.invocations, ∃ value replacement,
        call.result = .ok value ∧ Replacement.ofValue? value = some replacement ∧
          Line.text "ghost" ∈ replacement.lines := by
  have approved : (approve Host.ofNames 5 (.list [.text "macro"])).run
      (Session.ofActions ghosting).world =
        (.ok (ghosting, [.text "macro"]), (Session.ofActions ghosting).world) := by
    rfl
  have expanded : (turnOf Host.ofNames ghosting (.text "macro") [finishLine]
      (opening ghosting (Session.ofActions ghosting))).result =
        .ok (.rewrite [.text "ghost"]) := by
    rfl
  have course := congrArg Course.turns (course_cons_of_ok expanded 4 false)
  obtain ⟨others, rest⟩ := course_cons_turns Host.ofNames ghosting 3 (.text "ghost") [finishLine]
    false (turnOf Host.ofNames ghosting (.text "macro") [finishLine]
      (opening ghosting (Session.ofActions ghosting))).after.withoutLine
  have turns : (runCourse Host.ofNames 5 ghosting [.text "macro"]
      (Session.ofActions ghosting)).turns =
        [turnOf Host.ofNames ghosting (.text "macro") [finishLine]
          (opening ghosting (Session.ofActions ghosting))] ++
        turnOf Host.ofNames ghosting (.text "ghost") [finishLine] (turnOf Host.ofNames ghosting
          (.text "macro") [finishLine]
          (opening ghosting (Session.ofActions ghosting))).after.withoutLine :: others :=
    course.trans (congrArg (List.cons _) rest)
  obtain ⟨-, content, text, result, -, produced⟩ :=
    script_late_check approved (answersAlike_ghosting _) turns ⟨_, _, rfl, rfl⟩
  obtain rfl := Line.text.inj text
  exact ⟨_, _, _, turns, result, produced⟩

end LineScript.Run
