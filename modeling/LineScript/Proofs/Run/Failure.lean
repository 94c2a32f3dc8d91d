import LineScript.Proofs.Run.Course

/-!
# Lines that fail

A fault of a line is followed by FINISH as cleanup, unless FINISH has been started, and by nothing
else; the run fails with it. A failure that is no fault ends a run at once. All this does not
depend on what has failed, nor on how the line has come into the queue
(`LineScript.Run.script_failure`).
-/

namespace LineScript.Run

variable {Memory : Type}

/-- A cleanup that ends with no failure, or with a fault of its own, leaves the fault that it is
for. -/
theorem cleanUpCourse_result_of_fault {host : Host Memory} {actions : List Action} {fault : Fault}
    {session : Session Memory}
    (cleaned : ∀ failure, (cleanUpTurn host actions session).result = .error failure →
      ∃ inner, failure = .fault inner) :
    (cleanUpCourse host actions fault session).result = .error (.fault fault) := by
  unfold cleanUpCourse
  simp only []
  cases finished : (cleanUpTurn host actions session).result with
  | ok outcome => rfl
  | error failure =>
      obtain ⟨inner, rfl⟩ := cleaned failure finished
      rfl

/-- A cleanup that ends with a failure that is no fault replaces the fault that it is for. -/
theorem cleanUpCourse_result_of_abort {host : Host Memory} {actions : List Action} {fault : Fault}
    {session : Session Memory} {failure : Failure}
    (finished : (cleanUpTurn host actions session).result = .error failure)
    (abrupt : ∀ inner, failure ≠ .fault inner) :
    (cleanUpCourse host actions fault session).result = .error failure := by
  unfold cleanUpCourse
  cases failure with
  | fault inner => exact absurd rfl (abrupt inner)
  | abort kind message => simp only [finished]
  | outOfFuel => simp only [finished]

theorem failureCourse_of_abort {failure : Failure} (abrupt : ∀ inner, failure ≠ .fault inner)
    (host : Host Memory) (actions : List Action) (finishStarted : Bool)
    (session : Session Memory) :
    failureCourse host actions finishStarted failure session = ⟨[], .error failure, session⟩ := by
  cases failure with
  | fault inner => exact absurd rfl (abrupt inner)
  | abort kind message => cases finishStarted <;> rfl
  | outOfFuel => cases finishStarted <;> rfl

theorem failureCourse_of_finishStarted (host : Host Memory) (actions : List Action)
    (failure : Failure) (session : Session Memory) :
    failureCourse host actions true failure session = ⟨[], .error failure, session⟩ := by
  cases failure <;> rfl

/-- Behind a turn that fails a course goes on as the failure has it, unless the turn is the cleanup
after the turn before it has failed. -/
theorem course_from_failed {host : Host Memory} {actions : List Action} {fuel : Nat}
    {queue : List Line} {finishStarted : Bool} {session : Session Memory}
    {front back : List (Turn Memory)} {turn : Turn Memory} {failure : Failure}
    (turns : (course host actions fuel queue finishStarted session).turns = front ++ turn :: back)
    (failed : turn.result = .error failure) :
    ((∀ earlier ∈ front, ∃ outcome, earlier.result = .ok outcome) ∧
      (course host actions fuel queue finishStarted session).from back =
        failureCourse host actions
          ((finishStarted || front.any fun earlier => earlier.isFinish) || turn.isFinish) failure
          turn.after.withoutLine) ∨
    ∃ earlier failing fault, front = earlier ++ [failing] ∧
      failing.result = .error (.fault fault) ∧
      turn = cleanUpTurn host actions failing.after.withoutLine ∧ back = [] ∧
      (course host actions fuel queue finishStarted session).result =
        (cleanUpCourse host actions fault failing.after.withoutLine).result := by
  rcases course_from turns with
    ⟨fuel', session', succeeded, rest⟩ | ⟨earlier, failing, fault, rfl, faulty, -, rest⟩
  · left
    refine ⟨succeeded, ?_⟩
    cases finished : (turnOf host actions turn.line turn.waiting session').result with
    | ok outcome =>
        rw [course_cons_of_ok finished] at rest
        have first := (List.cons.inj (congrArg Course.turns rest)).1
        rw [first, finished] at failed
        cases failed
    | error other =>
        rw [course_cons_of_error finished] at rest
        obtain ⟨first, others⟩ := List.cons.inj (congrArg Course.turns rest)
        have same : other = failure := by
          rw [first, finished] at failed
          exact Except.error.inj failed
        have after : (turnOf host actions turn.line turn.waiting session').after = turn.after :=
          congrArg (fun turn => turn.after) first.symm
        rw [same, after] at rest others
        have result := congrArg Course.result rest
        have session := congrArg Course.session rest
        exact Course.ext others result session
  · right
    have rows := congrArg Course.turns rest
    have result := congrArg Course.result rest
    rw [cleanUpCourse_turns] at rows
    obtain ⟨first, others⟩ := List.cons.inj rows
    exact ⟨earlier, failing, fault, rfl, faulty, first, others, result⟩

theorem any_isFinish_eq_false {turns : List (Turn Memory)}
    (unfinished : ∀ turn ∈ turns, turn.line ≠ finishLine) :
    (turns.any fun turn => turn.isFinish) = false := by
  rw [List.any_eq_false]
  intro turn member finish
  exact unfinished turn member (beq_iff_eq.mp finish)

/-- Turns of other lines than FINISH and one of FINISH execute FINISH once. -/
theorem count_finishLine_append {turns : List (Turn Memory)} {last : Turn Memory}
    (unfinished : ∀ turn ∈ turns, turn.line ≠ finishLine) (finish : last.line = finishLine) :
    ((turns ++ [last]).map fun turn => turn.line).count finishLine = 1 := by
  have absent : finishLine ∉ turns.map fun turn => turn.line := by
    intro member
    obtain ⟨turn, member, same⟩ := List.mem_map.mp member
    exact unfinished turn member same
  rw [List.map_append, List.count_append, List.count_eq_zero_of_not_mem absent, List.map_singleton,
    finish]
  rfl

/-- A fault before FINISH has been started is followed by the cleanup alone. -/
theorem cleanUp_of_fault {host : Host Memory} {actions : List Action} {fuel : Nat}
    {queue : List Line} {session : Session Memory} {front back : List (Turn Memory)}
    {turn : Turn Memory} {fault : Fault}
    (turns : (course host actions fuel queue false session).turns = front ++ turn :: back)
    (failed : turn.result = .error (.fault fault))
    (unfinished : ∀ executed ∈ front ++ [turn], executed.line ≠ finishLine) :
    back = [cleanUpTurn host actions turn.after.withoutLine] ∧
      (course host actions fuel queue false session).result =
        (cleanUpCourse host actions fault turn.after.withoutLine).result := by
  rcases course_from_failed turns failed with ⟨-, rest⟩ | ⟨_, _, _, _, _, cleanup, _⟩
  · have unstarted :
        ((false || front.any fun earlier => earlier.isFinish) || turn.isFinish) = false := by
      have none := any_isFinish_eq_false unfinished
      rw [List.any_append, List.any_cons, List.any_nil, Bool.or_false] at none
      exact none
    rw [unstarted] at rest
    have rows := congrArg Course.turns rest
    have result := congrArg Course.result rest
    refine ⟨?_, result⟩
    rw [← cleanUpCourse_turns host actions fault]
    exact rows
  · have finish : turn.line = finishLine := by
      rw [cleanup]
      rfl
    exact absurd finish
      (unfinished turn (List.mem_append_right front (List.mem_singleton_self turn)))

/-- A failure of FINISH, unless it is the cleanup, ends a course. -/
theorem ends_of_finishLine {host : Host Memory} {actions : List Action} {fuel : Nat}
    {queue : List Line} {finishStarted : Bool} {session : Session Memory}
    {front back : List (Turn Memory)} {turn : Turn Memory} {failure : Failure}
    (turns : (course host actions fuel queue finishStarted session).turns = front ++ turn :: back)
    (failed : turn.result = .error failure) (finish : turn.line = finishLine)
    (succeeded : ∀ earlier ∈ front, ∃ outcome, earlier.result = .ok outcome) :
    back = [] ∧
      (course host actions fuel queue finishStarted session).result = .error failure := by
  rcases course_from_failed turns failed with ⟨-, rest⟩ | ⟨earlier, failing, fault, rfl, faulty, -⟩
  · have started : turn.isFinish = true := beq_iff_eq.mpr finish
    rw [started, Bool.or_true, failureCourse_of_finishStarted] at rest
    exact ⟨congrArg Course.turns rest, congrArg Course.result rest⟩
  · obtain ⟨outcome, ended⟩ :=
      succeeded failing (List.mem_append_right earlier (List.mem_singleton_self failing))
    rw [ended] at faulty
    cases faulty

/-- A failure that is no fault ends a course, even as one of the cleanup. -/
theorem ends_of_abort {host : Host Memory} {actions : List Action} {fuel : Nat}
    {queue : List Line} {finishStarted : Bool} {session : Session Memory}
    {front back : List (Turn Memory)} {turn : Turn Memory} {failure : Failure}
    (turns : (course host actions fuel queue finishStarted session).turns = front ++ turn :: back)
    (failed : turn.result = .error failure) (abrupt : ∀ fault, failure ≠ .fault fault) :
    back = [] ∧
      (course host actions fuel queue finishStarted session).result = .error failure := by
  rcases course_from_failed turns failed with
    ⟨-, rest⟩ | ⟨earlier, failing, fault, rfl, faulty, rfl, rfl, result⟩
  · rw [failureCourse_of_abort abrupt] at rest
    exact ⟨congrArg Course.turns rest, congrArg Course.result rest⟩
  · refine ⟨rfl, ?_⟩
    rw [result, cleanUpCourse_result_of_abort failed abrupt]

/-- What happens when a line of an approved script fails. The run comes to its course, in which
after a fault FINISH is executed once, as cleanup, if it has not been started before, from the
session that the line has left; nothing else is executed, and the run fails with the fault, unless
the cleanup ends with a failure that is no fault. When FINISH itself fails, or when the failure is
no fault, nothing is executed any more and the run fails with that failure. -/
theorem script_failure {host : Host Memory} {fuel : Nat} {source : Value}
    {session : Session Memory} {actions : List Action} {lines : List Line} {world : World Memory}
    {front back : List (Turn Memory)} {turn : Turn Memory} {failure : Failure}
    (approved : (approve host fuel source).run session.world = (.ok (actions, lines), world))
    (turns : (runCourse host fuel actions lines (session.inWorld world)).turns =
      front ++ turn :: back)
    (failed : turn.result = .error failure) :
    (script host fuel source).run session =
        ((runCourse host fuel actions lines (session.inWorld world)).result,
          closing (runCourse host fuel actions lines (session.inWorld world)).session) ∧
    (∀ fault, failure = .fault fault →
      (∀ executed ∈ front ++ [turn], executed.line ≠ finishLine) →
      ∃ cleanup, back = [cleanup] ∧
        cleanup.toExecution = execution host actions finishLine turn.after.withoutLine ∧
        (runCourse host fuel actions lines (session.inWorld world)).lines.count finishLine = 1 ∧
        ((∀ other, cleanup.result = .error other → ∃ inner, other = .fault inner) →
          ((script host fuel source).run session).1 = .error (.fault fault)) ∧
        ∀ other, cleanup.result = .error other → (∀ inner, other ≠ .fault inner) →
          ((script host fuel source).run session).1 = .error other) ∧
    (turn.line = finishLine → (∀ earlier ∈ front, ∃ outcome, earlier.result = .ok outcome) →
      back = [] ∧ ((script host fuel source).run session).1 = .error failure) ∧
    ((∀ fault, failure ≠ .fault fault) →
      back = [] ∧ ((script host fuel source).run session).1 = .error failure) := by
  have run := script_run_of_approved approved
  rw [run]
  refine ⟨rfl, ?_, ?_, ?_⟩
  · rintro fault rfl unfinished
    obtain ⟨others, result⟩ := cleanUp_of_fault turns failed unfinished
    refine ⟨_, others, rfl, ?_, ?_, ?_⟩
    · unfold Course.lines
      rw [turns, others, List.append_cons]
      exact count_finishLine_append unfinished rfl
    · intro cleaned
      exact result.trans (cleanUpCourse_result_of_fault cleaned)
    · intro other finished abrupt
      exact result.trans (cleanUpCourse_result_of_abort finished abrupt)
  · intro finish succeeded
    exact ends_of_finishLine turns failed finish succeeded
  · intro abrupt
    exact ends_of_abort turns failed abrupt

/-- Actions by which the line `X` fails, because the state has no entry of that name, and FINISH is
handled. -/
def missing : List Action :=
  [.ofName "X" (.call ⟨0, "X"⟩) true, .ofName "last" (.call ⟨1, "last"⟩) false,
    .ofSentinel .finish (.call ⟨2, "tidy"⟩)]

/-- A host on which the handler of FINISH fails. -/
def untidy : Host Unit :=
  { Host.ofNames with
    callHandler function _ :=
      if function.name = "tidy" then throw (.fault .missingArgument) else return .ready .null }

/-- The missing entry is what the run fails with. The last line is not executed, and the handler of
FINISH is called once, where its own fault makes no difference. -/
theorem script_failure_missing :
    ((runCourse untidy 5 missing [.text "X", .text "last"] (Session.ofActions missing)).turns.map
        fun turn => (turn.line, turn.invocations.length)) =
        [(.text "X", 0), (finishLine, 1)] ∧
      ((script untidy 5 (.list [.text "X", .text "last"])).run (Session.ofActions missing)).1 =
        .error (.fault (.script (.unknownReference "X"))) := by
  have approved : (approve untidy 5 (.list [.text "X", .text "last"])).run
      (Session.ofActions missing).world =
        (.ok (missing, [.text "X", .text "last"]), (Session.ofActions missing).world) := by
    rfl
  have failed : (turnOf untidy missing (.text "X") [.text "last", finishLine]
      (opening missing (Session.ofActions missing))).result =
        .error (.fault (.script (.unknownReference "X"))) := by
    rfl
  have course := course_cons_of_error failed 4 false
  have turns : (runCourse untidy 5 missing [.text "X", .text "last"]
      (Session.ofActions missing)).turns =
        [] ++ turnOf untidy missing (.text "X") [.text "last", finishLine]
          (opening missing (Session.ofActions missing)) :: _ :=
    congrArg Course.turns course
  have unfinished : ∀ executed ∈ [] ++ [turnOf untidy missing (.text "X")
      [.text "last", finishLine] (opening missing (Session.ofActions missing))],
      executed.line ≠ finishLine := by
    intro executed member
    rw [List.mem_singleton.mp member]
    decide
  obtain ⟨cleanup, -, same, -, result, -⟩ :=
    (script_failure approved turns failed).2.1 _ rfl unfinished
  refine ⟨?_, result ?_⟩
  · decide +kernel
  · intro other finished
    rw [same] at finished
    exact ⟨.missingArgument, (Except.error.inj finished).symm⟩

end LineScript.Run
