import LineScript.Proofs.Run.Course

/-!
# FINISH comes once and last

The queue of a run ends with FINISH, and a FINISH line before that ends the script. So a run that
yields a value or fails with a fault executes FINISH once and then nothing else. There is one
exception: a FINISH line that is answered by DONE ends only itself, so lines that still wait
behind it are executed (`LineScript.Run.script_finish_iff`).
-/

namespace LineScript.Run

variable {Memory : Type}

/-- Whether lines are some lines other than FINISH and then FINISH. -/
def EndsWithFinish (lines : List Line) : Prop :=
  ∃ before, lines = before ++ [finishLine] ∧ finishLine ∉ before

/-- Whether a result is a value or a fault. -/
def IsRegular (result : Except Failure Unit) : Prop :=
  result = .ok () ∨ ∃ fault, result = .error (.fault fault)

theorem IsRegular.ne_outOfFuel {result : Except Failure Unit} (regular : IsRegular result) :
    result ≠ .error .outOfFuel := by
  rintro rfl
  obtain regular | ⟨fault, regular⟩ := regular <;> cases regular

theorem IsRegular.ne_abort {result : Except Failure Unit} (regular : IsRegular result)
    (kind message : String) : result ≠ .error (.abort kind message) := by
  rintro rfl
  obtain regular | ⟨fault, regular⟩ := regular <;> cases regular

theorem isRegular_of_isOk {result : Except Failure Unit} (succeeds : result.isOk = true) :
    IsRegular result := by
  cases result with
  | ok value => exact Or.inl rfl
  | error failure => cases succeeds

/-- Whether a turn of FINISH ends only its line although other lines wait. -/
def Turn.LeavesLines (turn : Turn Memory) : Prop :=
  turn.line = finishLine ∧ turn.result = .ok .stopLine ∧ turn.waiting ≠ []

theorem EndsWithFinish.cons {lines : List Line} {line : Line} (ends : EndsWithFinish lines)
    (other : line ≠ finishLine) : EndsWithFinish (line :: lines) := by
  obtain ⟨before, rfl, absent⟩ := ends
  refine ⟨line :: before, rfl, ?_⟩
  rintro (_ | ⟨_, member⟩)
  · exact other rfl
  · exact absent member

theorem endsWithFinish_finishLine : EndsWithFinish [finishLine] :=
  ⟨[], rfl, List.not_mem_nil⟩

/-- Behind a FINISH line in such a row there is nothing. -/
theorem EndsWithFinish.eq_nil {before after : List Line}
    (ends : EndsWithFinish (before ++ finishLine :: after)) : after = [] := by
  obtain ⟨others, same, absent⟩ := ends
  cases after with
  | nil => rfl
  | cons line after =>
      refine absurd ?_ absent
      have init := congrArg List.dropLast same
      rw [List.dropLast_concat, List.dropLast_append_of_ne_nil (List.cons_ne_nil _ _),
        List.dropLast_cons_of_ne_nil (List.cons_ne_nil line after)] at init
      rw [← init]
      exact List.mem_append_right before List.mem_cons_self

/-- A queue that ends with FINISH still does when its first line is another one and is replaced by
other lines. -/
theorem getLast?_queueAfter {outcome : LineOutcome} {line : Line} {queue : List Line}
    (last : (line :: queue).getLast? = some finishLine) (other : line ≠ finishLine) :
    (queueAfter outcome queue false).getLast? = some finishLine := by
  have rest : queue.getLast? = some finishLine := by
    cases queue with
    | nil => exact absurd (Option.some.inj last) other
    | cons next queue => exact last
  cases outcome with
  | proceed => exact rest
  | stopLine => exact rest
  | rewrite lines =>
      rw [queueAfter, List.getLast?_append, rest]
      rfl
  | stopScript => rfl

theorem turns_ne_nil {host : Host Memory} {actions : List Action} {fuel : Nat} {queue : List Line}
    {finishStarted : Bool} {session : Session Memory} (waiting : queue ≠ [])
    (ended : (course host actions fuel queue finishStarted session).result ≠ .error .outOfFuel) :
    (course host actions fuel queue finishStarted session).turns ≠ [] := by
  cases queue with
  | nil => exact absurd rfl waiting
  | cons line queue =>
      cases fuel with
      | zero => exact absurd rfl ended
      | succ fuel =>
          obtain ⟨others, turns⟩ :=
            course_cons_turns host actions fuel line queue finishStarted session
          rw [turns]
          exact List.cons_ne_nil _ _

theorem lines_behind (course : Course Memory) (turn : Turn Memory) :
    (course.behind turn).lines = turn.line :: course.lines := rfl

/-- The turn of FINISH is the last one, unless it leaves lines. -/
theorem lines_of_finishLine {host : Host Memory} {actions : List Action} {fuel : Nat}
    {queue : List Line} {started : Bool} {session : Session Memory}
    (tidy : ¬(turnOf host actions finishLine queue session).LeavesLines) :
    (course host actions (fuel + 1) (finishLine :: queue) started session).lines =
      [finishLine] := by
  have starts : (started || finishLine == finishLine) = true := by
    rw [beq_self_eq_true, Bool.or_true]
  rcases execution_finishLine_result host actions (session.withLine finishLine) with
    left | left | ⟨failure, left⟩
  · have alone : queue = [] := by
      cases queue with
      | nil => rfl
      | cons line queue => exact absurd ⟨rfl, left, List.cons_ne_nil line queue⟩ tidy
    rw [course_cons_of_ok left, alone, queueAfter, course_nil]
    rfl
  · rw [course_cons_of_ok left, starts, queueAfter, if_pos rfl, course_nil]
    rfl
  · rw [course_cons_of_error left, starts]
    cases failure <;> rfl

/-- A queue that ends with FINISH comes to FINISH once and last, if no FINISH line leaves lines. -/
theorem lines_endsWithFinish {host : Host Memory} {actions : List Action} {fuel : Nat}
    {queue : List Line} {session : Session Memory}
    (last : queue.getLast? = some finishLine)
    (regular : IsRegular (course host actions fuel queue false session).result)
    (tidy : ∀ turn ∈ (course host actions fuel queue false session).turns, ¬turn.LeavesLines) :
    EndsWithFinish (course host actions fuel queue false session).lines := by
  -- Until FINISH is taken from the queue it has not been started and is the last line there.
  induction fuel generalizing queue session with
  | zero =>
      cases queue with
      | nil => cases last
      | cons line queue => exact absurd rfl regular.ne_outOfFuel
  | succ fuel ih =>
      cases queue with
      | nil => cases last
      | cons line queue =>
          by_cases finish : line = finishLine
          · subst finish
            have first : turnOf host actions finishLine queue session ∈
                (course host actions (fuel + 1) (finishLine :: queue) false session).turns := by
              obtain ⟨others, turns⟩ :=
                course_cons_turns host actions fuel finishLine queue false session
              rw [turns]
              exact List.mem_cons_self
            rw [lines_of_finishLine (tidy _ first)]
            exact endsWithFinish_finishLine
          · have unstarted : (false || line == finishLine) = false := by
              rw [Bool.false_or, beq_eq_false_iff_ne]
              exact finish
            cases finished : (turnOf host actions line queue session).result with
            | ok outcome =>
                rw [course_cons_of_ok finished, unstarted] at regular tidy ⊢
                rw [lines_behind]
                refine EndsWithFinish.cons (ih (getLast?_queueAfter last finish) regular ?_) finish
                intro turn member
                exact tidy turn (List.mem_cons_of_mem _ member)
            | error failure =>
                rw [course_cons_of_error finished, unstarted] at regular ⊢
                rw [lines_behind]
                refine EndsWithFinish.cons ?_ finish
                cases failure with
                | fault fault =>
                    unfold Course.lines
                    rw [failureCourse, cleanUpCourse_turns]
                    exact endsWithFinish_finishLine
                | abort kind message => exact absurd rfl (regular.ne_abort kind message)
                | outOfFuel => exact absurd rfl regular.ne_outOfFuel

/-- A FINISH line that leaves lines is followed by others, in a course that comes to an end. -/
theorem not_leavesLines {host : Host Memory} {actions : List Action} {fuel : Nat}
    {queue : List Line} {started : Bool} {session : Session Memory}
    (ended : (course host actions fuel queue started session).result ≠ .error .outOfFuel)
    (ends : EndsWithFinish (course host actions fuel queue started session).lines)
    {turn : Turn Memory}
    (taken : turn ∈ (course host actions fuel queue started session).turns) :
    ¬turn.LeavesLines := by
  rintro ⟨finish, left, waiting⟩
  obtain ⟨front, back, turns⟩ := List.append_of_mem taken
  have nothing : back = [] := by
    unfold Course.lines at ends
    rw [turns, List.map_append, List.map_cons, finish] at ends
    exact List.map_eq_nil_iff.mp ends.eq_nil
  subst nothing
  rcases course_from turns with ⟨fuel', session', -, rest⟩ | ⟨_, _, _, _, _, _, rest⟩
  · obtain ⟨others, first⟩ := course_cons_turns host actions fuel' turn.line turn.waiting
      (started || front.any fun earlier => earlier.isFinish) session'
    rw [← rest] at first
    have same : turn = turnOf host actions turn.line turn.waiting session' :=
      (List.cons.inj first).1
    rw [same] at left
    rw [course_cons_of_ok left] at rest
    have rows := (List.cons.inj (congrArg Course.turns rest)).2
    have result := congrArg Course.result rest
    refine turns_ne_nil waiting ?_ rows.symm
    intro failed
    exact ended (result.trans failed)
  · have rows := congrArg Course.turns rest
    rw [cleanUpCourse_turns] at rows
    obtain ⟨rfl, -⟩ := List.cons.inj rows
    exact waiting rfl

/-- A run that yields a value or fails with a fault comes to its course, and executes FINISH once
and nothing after it exactly when no FINISH line ends only itself while other lines wait. -/
theorem script_finish_iff {host : Host Memory} {fuel : Nat} {source : Value}
    {session : Session Memory} {actions : List Action} {lines : List Line} {world : World Memory}
    (approved : (approve host fuel source).run session.world = (.ok (actions, lines), world))
    (regular : IsRegular ((script host fuel source).run session).1) :
    (script host fuel source).run session =
        ((runCourse host fuel actions lines (session.inWorld world)).result,
          closing (runCourse host fuel actions lines (session.inWorld world)).session) ∧
      (EndsWithFinish (runCourse host fuel actions lines (session.inWorld world)).lines ↔
        ∀ turn ∈ (runCourse host fuel actions lines (session.inWorld world)).turns,
          ¬turn.LeavesLines) := by
  have run := script_run_of_approved approved
  rw [run] at regular
  refine ⟨run, ?_⟩
  constructor
  · intro ends turn taken
    exact not_leavesLines regular.ne_outOfFuel ends taken
  · intro tidy
    refine lines_endsWithFinish ?_ regular tidy
    rw [List.getLast?_append]
    rfl

/-- Actions by which `macro` expands to FINISH and `leaf`, and FINISH is answered by DONE. -/
def finishing : List Action :=
  [.ofName "macro" (.lines [finishLine, .text "leaf"]) false,
    .ofName "leaf" (.call ⟨0, "leaf"⟩) false, .ofSentinel .finish (.line (.sentinel .done))]

/-- Where nothing waits behind FINISH, DONE makes no difference. -/
theorem script_finish_iff_leaf :
    EndsWithFinish (runCourse Host.ofNames 5 finishing [.text "leaf"]
      (Session.ofActions finishing)).lines := by
  have approved : (approve Host.ofNames 5 (.list [.text "leaf"])).run
      (Session.ofActions finishing).world =
        (.ok (finishing, [.text "leaf"]), (Session.ofActions finishing).world) := by
    rfl
  have regular : IsRegular ((script Host.ofNames 5 (.list [.text "leaf"])).run
      (Session.ofActions finishing)).1 := by
    refine isRegular_of_isOk ?_
    decide +kernel
  have alone : ∀ turn ∈ (runCourse Host.ofNames 5 finishing [.text "leaf"]
      (Session.ofActions finishing)).turns, turn.line = finishLine → turn.waiting = [] := by
    decide +kernel
  refine (script_finish_iff approved regular).2.mpr ?_
  rintro turn taken ⟨finish, -, waiting⟩
  exact waiting (alone turn taken finish)

/-- A run can execute FINISH in an expansion, then a line behind it, and FINISH again. -/
theorem not_endsWithFinish_macro :
    (approve Host.ofNames 9 (.list [.text "macro"])).run (Session.ofActions finishing).world =
        (.ok (finishing, [.text "macro"]), (Session.ofActions finishing).world) ∧
      IsRegular ((script Host.ofNames 9 (.list [.text "macro"])).run
        (Session.ofActions finishing)).1 ∧
      (runCourse Host.ofNames 9 finishing [.text "macro"] (Session.ofActions finishing)).lines =
        [.text "macro", finishLine, .text "leaf", finishLine] ∧
      ¬EndsWithFinish (runCourse Host.ofNames 9 finishing [.text "macro"]
        (Session.ofActions finishing)).lines := by
  have lines : (runCourse Host.ofNames 9 finishing [.text "macro"]
      (Session.ofActions finishing)).lines =
        [.text "macro", finishLine, .text "leaf", finishLine] := by
    decide +kernel
  refine ⟨rfl, ?_, lines, ?_⟩
  · refine isRegular_of_isOk ?_
    decide +kernel
  · rw [lines]
    intro ends
    have split : EndsWithFinish ([.text "macro"] ++ finishLine :: [.text "leaf", finishLine]) :=
      ends
    cases split.eq_nil

end LineScript.Run
