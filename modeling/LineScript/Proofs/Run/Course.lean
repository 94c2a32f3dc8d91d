import LineScript.Proofs.Run.Execution

/-!
# The course of a run

The course of a queue is the row of its *turns*, the executions of lines that it comes to, each
with the lines that wait behind it, and the result and the session that it ends with. Only the
lines of the queue itself count, not those of runs inside handlers. A course agrees with the
execution of the queue (`LineScript.Run.executeQueue_run`), and a run of an approved script has
the course of its lines and FINISH (`LineScript.Run.script_run_of_approved`).
-/

namespace LineScript.Run

variable {Memory : Type}

/-- An execution of a line with the lines that wait behind it. -/
structure Turn (Memory : Type) extends Execution Memory where
  waiting : List Line

/-- The turns that a queue comes to, the result and the last session. -/
@[ext] structure Course (Memory : Type) where
  turns : List (Turn Memory)
  result : Except Failure Unit
  session : Session Memory

namespace Course

/-- A course with a turn before it. -/
def behind (course : Course Memory) (turn : Turn Memory) : Course Memory :=
  { course with turns := turn :: course.turns }

/-- The lines that are executed, in order. -/
def lines (course : Course Memory) : List Line :=
  course.turns.map fun turn => turn.line

/-- The executions of a course, in order. -/
def executions (course : Course Memory) : List (Execution Memory) :=
  course.turns.map Turn.toExecution

@[simp] theorem executions_behind (course : Course Memory) (turn : Turn Memory) :
    (course.behind turn).executions = turn.toExecution :: course.executions := rfl

end Course

/-- The turn of a line that the loop takes from its queue. -/
def turnOf (host : Host Memory) (actions : List Action) (line : Line) (waiting : List Line)
    (session : Session Memory) : Turn Memory :=
  { execution host actions line (session.withLine line) with waiting := waiting }

/-- The turn of FINISH as cleanup. No line waits behind it any more. -/
def cleanUpTurn (host : Host Memory) (actions : List Action) (session : Session Memory) :
    Turn Memory :=
  { execution host actions finishLine session with waiting := [] }

/-- The course of the cleanup after a fault. The fault remains the result, unless the cleanup ends
with a failure that is none. -/
def cleanUpCourse (host : Host Memory) (actions : List Action) (fault : Fault)
    (session : Session Memory) : Course Memory :=
  let turn := cleanUpTurn host actions session
  match turn.result with
  | .ok _ => ⟨[turn], .error (.fault fault), turn.after⟩
  | .error (.fault _) => ⟨[turn], .error (.fault fault), turn.after.noting .finishFailed⟩
  | .error failure => ⟨[turn], .error failure, turn.after⟩

/-- The course after a line has failed. -/
def failureCourse (host : Host Memory) (actions : List Action) (finishStarted : Bool)
    (failure : Failure) (session : Session Memory) : Course Memory :=
  match failure, finishStarted with
  | .fault fault, false => cleanUpCourse host actions fault session
  | failure, _ => ⟨[], .error failure, session⟩

/-- The course of a queue. -/
def course (host : Host Memory) (actions : List Action) :
    (fuel : Nat) → (queue : List Line) → (finishStarted : Bool) → Session Memory → Course Memory
  | _, [], _, session => ⟨[], .ok (), session⟩
  | 0, _ :: _, _, session => ⟨[], .error .outOfFuel, session⟩
  | fuel + 1, line :: queue, finishStarted, session =>
    let finishStarted := finishStarted || line == finishLine
    let turn := turnOf host actions line queue session
    match turn.result with
    | .ok outcome =>
      (course host actions fuel (queueAfter outcome queue finishStarted) finishStarted
        turn.after.withoutLine).behind turn
    | .error failure =>
      (failureCourse host actions finishStarted failure turn.after.withoutLine).behind turn

/-- The part of a course that some of its last turns make up. -/
def Course.from (course : Course Memory) (turns : List (Turn Memory)) : Course Memory :=
  { course with turns := turns }

@[simp] theorem toExecution_turnOf (host : Host Memory) (actions : List Action) (line : Line)
    (waiting : List Line) (session : Session Memory) :
    (turnOf host actions line waiting session).toExecution =
      execution host actions line (session.withLine line) := rfl

@[simp] theorem course_nil (host : Host Memory) (actions : List Action) (fuel : Nat)
    (finishStarted : Bool) (session : Session Memory) :
    course host actions fuel [] finishStarted session = ⟨[], .ok (), session⟩ := by
  cases fuel <;> rfl

theorem course_cons_of_ok {host : Host Memory} {actions : List Action} {line : Line}
    {queue : List Line} {session : Session Memory} {outcome : LineOutcome}
    (succeeded : (turnOf host actions line queue session).result = .ok outcome) (fuel : Nat)
    (finishStarted : Bool) :
    course host actions (fuel + 1) (line :: queue) finishStarted session =
      (course host actions fuel (queueAfter outcome queue (finishStarted || line == finishLine))
        (finishStarted || line == finishLine)
        (turnOf host actions line queue session).after.withoutLine).behind
          (turnOf host actions line queue session) := by
  rw [course]
  simp only [succeeded]

theorem course_cons_of_error {host : Host Memory} {actions : List Action} {line : Line}
    {queue : List Line} {session : Session Memory} {failure : Failure}
    (failed : (turnOf host actions line queue session).result = .error failure) (fuel : Nat)
    (finishStarted : Bool) :
    course host actions (fuel + 1) (line :: queue) finishStarted session =
      (failureCourse host actions (finishStarted || line == finishLine) failure
        (turnOf host actions line queue session).after.withoutLine).behind
          (turnOf host actions line queue session) := by
  rw [course]
  simp only [failed]

theorem course_cons_turns (host : Host Memory) (actions : List Action) (fuel : Nat) (line : Line)
    (queue : List Line) (finishStarted : Bool) (session : Session Memory) :
    ∃ others, (course host actions (fuel + 1) (line :: queue) finishStarted session).turns =
      turnOf host actions line queue session :: others := by
  cases finished : (turnOf host actions line queue session).result with
  | ok outcome =>
      rw [course_cons_of_ok finished]
      exact ⟨_, rfl⟩
  | error failure =>
      rw [course_cons_of_error finished]
      exact ⟨_, rfl⟩

/-- A course that ends is the same with more fuel. -/
theorem course_add_fuel {host : Host Memory} {actions : List Action} {fuel : Nat}
    {queue : List Line} {finishStarted : Bool} {session : Session Memory}
    (ended : (course host actions fuel queue finishStarted session).result ≠ .error .outOfFuel)
    (more : Nat) :
    course host actions (fuel + more) queue finishStarted session =
      course host actions fuel queue finishStarted session := by
  induction fuel generalizing queue finishStarted session with
  | zero =>
      cases queue with
      | nil => rw [course_nil, course_nil]
      | cons line queue => exact absurd rfl ended
  | succ fuel ih =>
      cases queue with
      | nil => rw [course_nil, course_nil]
      | cons line queue =>
          rw [Nat.add_right_comm]
          cases finished : (turnOf host actions line queue session).result with
          | ok outcome =>
              rw [course_cons_of_ok finished] at ended ⊢
              rw [course_cons_of_ok finished, ih ended]
          | error failure => rw [course_cons_of_error finished, course_cons_of_error finished]

theorem cleanUpCourse_turns (host : Host Memory) (actions : List Action) (fault : Fault)
    (session : Session Memory) :
    (cleanUpCourse host actions fault session).turns = [cleanUpTurn host actions session] := by
  unfold cleanUpCourse
  simp only []
  split <;> rfl

/-- After a failure there is no turn but that of the cleanup after a fault. -/
theorem failureCourse_turns {host : Host Memory} {actions : List Action} {finishStarted : Bool}
    {failure : Failure} {session : Session Memory} {turn : Turn Memory}
    {front back : List (Turn Memory)}
    (turns : (failureCourse host actions finishStarted failure session).turns =
      front ++ turn :: back) :
    front = [] ∧ finishStarted = false ∧ ∃ fault, failure = .fault fault ∧
      (failureCourse host actions finishStarted failure session).from (turn :: back) =
        cleanUpCourse host actions fault session := by
  unfold failureCourse at turns ⊢
  split at turns
  · rename_i fault
    have alone : front = [] ∧ back = [] := by
      rw [cleanUpCourse_turns] at turns
      cases front with
      | nil => exact ⟨rfl, (List.cons.inj turns).2.symm⟩
      | cons first others =>
          exact absurd (List.cons.inj turns).2.symm
            (List.append_ne_nil_of_right_ne_nil others (List.cons_ne_nil turn back))
    obtain ⟨rfl, rfl⟩ := alone
    refine ⟨rfl, rfl, fault, rfl, ?_⟩
    unfold Course.from
    rw [List.nil_append] at turns
    rw [← turns]
  · exact absurd turns.symm (List.append_ne_nil_of_right_ne_nil front (List.cons_ne_nil turn back))

/-- Each turn of a course begins the course of its line and the lines that wait behind it, unless
it is the cleanup after the turn before it has failed. -/
theorem course_from {host : Host Memory} {actions : List Action} {fuel : Nat} {queue : List Line}
    {finishStarted : Bool} {session : Session Memory} {front back : List (Turn Memory)}
    {turn : Turn Memory}
    (turns : (course host actions fuel queue finishStarted session).turns =
      front ++ turn :: back) :
    (∃ fuel' session', (∀ earlier ∈ front, ∃ outcome, earlier.result = .ok outcome) ∧
      (course host actions fuel queue finishStarted session).from (turn :: back) =
        course host actions (fuel' + 1) (turn.line :: turn.waiting)
          (finishStarted || front.any fun earlier => earlier.isFinish) session') ∨
    ∃ earlier failed fault, front = earlier ++ [failed] ∧ failed.result = .error (.fault fault) ∧
      (finishStarted || front.any fun earlier => earlier.isFinish) = false ∧
      (course host actions fuel queue finishStarted session).from (turn :: back) =
        cleanUpCourse host actions fault failed.after.withoutLine := by
  have absent (others : List (Turn Memory)) : others ++ turn :: back ≠ [] :=
    List.append_ne_nil_of_right_ne_nil others (List.cons_ne_nil turn back)
  induction fuel generalizing queue finishStarted session front with
  | zero =>
      cases queue with
      | nil => exact absurd turns.symm (absent front)
      | cons line queue => exact absurd turns.symm (absent front)
  | succ fuel ih =>
      cases queue with
      | nil => exact absurd turns.symm (absent front)
      | cons line queue =>
          cases front with
          | nil =>
              left
              have whole : (course host actions (fuel + 1) (line :: queue) finishStarted
                  session).from (turn :: back) =
                    course host actions (fuel + 1) (line :: queue) finishStarted session := by
                unfold Course.from
                rw [List.nil_append] at turns
                rw [← turns]
              refine ⟨fuel, session, ?_, ?_⟩
              · intro earlier member
                cases member
              · obtain ⟨others, first⟩ :=
                  course_cons_turns host actions fuel line queue finishStarted session
                rw [first] at turns
                obtain ⟨rfl, -⟩ := List.cons.inj turns
                rw [whole, List.any_nil, Bool.or_false]
                rfl
          | cons first front =>
              cases finished : (turnOf host actions line queue session).result with
              | ok outcome =>
                  rw [course_cons_of_ok finished] at turns ⊢
                  obtain ⟨rfl, others⟩ := List.cons.inj turns
                  rw [List.any_cons, ← Bool.or_assoc]
                  rcases ih others with
                    ⟨fuel', session', succeeded, rest⟩ | ⟨earlier, failed, fault, rfl, left⟩
                  · refine Or.inl ⟨fuel', session', ?_, rest⟩
                    intro earlier member
                    rcases List.mem_cons.mp member with rfl | member
                    · exact ⟨outcome, finished⟩
                    · exact succeeded earlier member
                  · exact Or.inr ⟨_ :: earlier, failed, fault, rfl, left⟩
              | error failure =>
                  rw [course_cons_of_error finished] at turns ⊢
                  obtain ⟨rfl, others⟩ := List.cons.inj turns
                  obtain ⟨rfl, started, fault, rfl, rest⟩ := failureCourse_turns others
                  refine Or.inr ⟨[], _, fault, rfl, finished, ?_, rest⟩
                  rw [List.any_cons, List.any_nil, Bool.or_false]
                  exact started

/-- The turn of a line is the attempt to execute it. -/
theorem attemptLine_run (host : Host Memory) (actions : List Action) (line : Line)
    (waiting : List Line) (session : Session Memory) :
    (attemptLine host actions line).run session =
      (.ok (turnOf host actions line waiting session).result,
        (turnOf host actions line waiting session).after.withoutLine) := by
  unfold attemptLine
  have executed (start : Session Memory) :
      ((do
        let result ← Procedure.attempt (executeLine host actions line)
        Procedure.modifyState fun state => state.erase State.lineName
        return result) : Procedure Memory _).run start =
        (.ok (execution host actions line start).result,
          (execution host actions line start).after.withoutLine) := by
    rw [run_bind_of_ok (Procedure.run_attempt _ _), executeLine_run]
    rfl
  cases line with
  | text content =>
      simp only []
      rw [run_bind_of_ok (Procedure.run_modifyState _ _)]
      exact executed _
  | sentinel mark => exact executed session

/-- Cleaning up after a fault and failing with it comes to what the course of the cleanup says. -/
theorem cleanUp_run (host : Host Memory) (actions : List Action) (fault : Fault)
    (session : Session Memory) :
    (cleanUp host actions >>= fun _ => throw (.fault fault) : Procedure Memory Unit).run session =
      ((cleanUpCourse host actions fault session).result,
        (cleanUpCourse host actions fault session).session) := by
  have finished : (Procedure.attempt (executeLine host actions finishLine)).run session =
      (.ok (cleanUpTurn host actions session).result,
        (cleanUpTurn host actions session).after) := by
    rw [Procedure.run_attempt, executeLine_run]
    rfl
  unfold cleanUpCourse cleanUp
  rw [bind_assoc, run_bind_of_ok finished]
  simp only []
  cases (cleanUpTurn host actions session).result with
  | ok outcome => rfl
  | error failure =>
      cases failure with
      | fault inner => rfl
      | abort kind message => rfl
      | outOfFuel => rfl

/-- Executing a queue comes to what its course says. -/
theorem executeQueue_run (host : Host Memory) (actions : List Action) (fuel : Nat)
    (queue : List Line) (finishStarted : Bool) (session : Session Memory) :
    (executeQueue host actions fuel queue finishStarted).run session =
      ((course host actions fuel queue finishStarted session).result,
        (course host actions fuel queue finishStarted session).session) := by
  induction fuel generalizing queue finishStarted session with
  | zero => cases queue <;> rfl
  | succ fuel ih =>
      cases queue with
      | nil => rfl
      | cons line queue =>
          rw [executeQueue]
          simp only []
          rw [run_bind_of_ok (attemptLine_run host actions line queue session)]
          cases finished : (turnOf host actions line queue session).result with
          | ok outcome =>
              rw [course_cons_of_ok finished]
              exact ih _ _ _
          | error failure =>
              rw [course_cons_of_error finished]
              generalize (finishStarted || line == finishLine) = started
              cases failure with
              | fault fault =>
                  cases started with
                  | true => rfl
                  | false => exact cleanUp_run host actions fault _
              | abort kind message => cases started <;> rfl
              | outOfFuel => cases started <;> rfl

/-- The session in which the lines of an approved script start. -/
def opening (actions : List Action) (session : Session Memory) : Session Memory :=
  ({ session with state := session.state.put State.engineName .engine }).noting
    (.executingAgainst actions.length)

/-- The session after a run, which has taken the entries of the engine out of the state. -/
def closing (session : Session Memory) : Session Memory :=
  { session with state := session.state.withoutTransient }

/-- The course of a run with some actions and the lines of a script before FINISH. -/
def runCourse (host : Host Memory) (fuel : Nat) (actions : List Action) (lines : List Line)
    (session : Session Memory) : Course Memory :=
  course host actions fuel (lines ++ [finishLine]) false (opening actions session)

/-- Running an approved script comes to what its course says. -/
theorem script_run_of_approved {host : Host Memory} {fuel : Nat} {source : Value}
    {session : Session Memory} {actions : List Action} {lines : List Line} {world : World Memory}
    (approved : (approve host fuel source).run session.world = (.ok (actions, lines), world)) :
    (script host fuel source).run session =
      ((runCourse host fuel actions lines (session.inWorld world)).result,
        closing (runCourse host fuel actions lines (session.inWorld world)).session) := by
  have asked := Procedure.run_lift (approve host fuel source) session
  rw [approved] at asked
  have executed :
      (do
        Procedure.note (.executingAgainst actions.length)
        executeQueue host actions fuel (lines ++ [finishLine]) false : Procedure Memory Unit).run
          { session.inWorld world with
            state := (session.inWorld world).state.put State.engineName .engine } =
        ((runCourse host fuel actions lines (session.inWorld world)).result,
          (runCourse host fuel actions lines (session.inWorld world)).session) := by
    rw [run_bind_of_ok (Procedure.run_note _ _)]
    exact executeQueue_run host actions fuel (lines ++ [finishLine]) false _
  unfold script
  rw [run_bind_of_ok asked]
  simp only []
  rw [run_bind_of_ok (Procedure.run_modifyState _ _), run_bind_of_ok (Procedure.run_attempt _ _),
    executed, run_bind_of_ok (Procedure.run_modifyState _ _), Procedure.run_ofResult]
  rfl

/-- A script that is not approved fails as its approval does, and leaves the state as it is. -/
theorem script_run_of_refused {host : Host Memory} {fuel : Nat} {source : Value}
    {session : Session Memory} {failure : Failure} {world : World Memory}
    (refused : (approve host fuel source).run session.world = (.error failure, world)) :
    (script host fuel source).run session = (.error failure, session.inWorld world) := by
  have asked := Procedure.run_lift (approve host fuel source) session
  rw [refused] at asked
  unfold script
  rw [run_bind_of_error asked]

end LineScript.Run
