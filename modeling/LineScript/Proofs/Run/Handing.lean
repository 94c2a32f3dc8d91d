import LineScript.Proofs.Run.Course

/-!
# How a state is handed on

While a line is executed only calls of handlers change the state: each call finds the state that the
call before it has left (`LineScript.Run.execution_handedOn`). Around a line the loop puts the line
into the state and takes it out again, and the cleanup starts where the line that has failed was
left (`LineScript.Run.course_follows`). So what the engine and every call preserve holds in every
call of a course and at its end (`LineScript.Run.Follows.invariant`).
-/

namespace LineScript.Run

variable {Memory : Type} {host : Host Memory} {actions : List Action}

/-- Whether calls are made one after the other, the first in some state and each other one in the
state that the call before has left. -/
inductive HandedOn : State → List (Invocation Memory) → State → Prop where
  | nil (state : State) : HandedOn state [] state
  | cons {call : Invocation Memory} {calls : List (Invocation Memory)} {last : State} :
      HandedOn call.after.state calls last → HandedOn call.session.state (call :: calls) last

/-- What all calls preserve holds in all of them and at the end. -/
theorem HandedOn.invariant {first last : State} {calls : List (Invocation Memory)}
    (handed : HandedOn first calls last) (Holds : State → Prop) (start : Holds first)
    (preserved : ∀ call ∈ calls, Holds call.session.state → Holds call.after.state) :
    (∀ call ∈ calls, Holds call.session.state) ∧ Holds last := by
  induction handed with
  | nil state => exact ⟨List.forall_mem_nil _, start⟩
  | @cons call calls last handed ih =>
      obtain ⟨own, others⟩ := List.forall_mem_cons.mp preserved
      obtain ⟨within, final⟩ := ih (own start) others
      exact ⟨List.forall_mem_cons.mpr ⟨start, within⟩, final⟩

theorem HandedOn.behind {first last : State} {before later : List (Invocation Memory)}
    {call : Invocation Memory} (handed : HandedOn first (before ++ call :: later) last) :
    HandedOn call.after.state later last := by
  induction before generalizing first with
  | nil =>
      cases handed with
      | cons rest => exact rest
  | cons earlier before ih =>
      cases handed with
      | cons rest => exact ih rest

/-- A trial leaves the state to the call of the handler, if it comes to one. -/
theorem trial_state (host : Host Memory) (line : Line) (action : Action)
    (session : Session Memory) :
    match trial host line action session with
    | .passed last => last.state = session.state
    | .failed _ last => last.state = session.state
    | .invoked call =>
      call.session.state = session.state ∧ action.accepts line.toValue = true ∧
        call = invocation host action call.arguments call.session := by
  unfold trial
  by_cases accepted : action.accepts line.toValue
  · simp only [accepted, ↓reduceIte]
    rcases (action.matched host line).run session.world with ⟨failure | _ | taken, world⟩
    · rfl
    · rfl
    · simp only []
      cases argumentsFor action line taken session.state with
      | error fault => rfl
      | ok arguments => exact ⟨rfl, trivial, rfl⟩
  · simp only [accepted, Bool.false_eq_true, ↓reduceIte]

theorem regarding_state (session : Session Memory) (result : Value) :
    (regarding session result).state = session.state := by
  unfold regarding
  split <;> rfl

theorem Offers.handedOn {line : Line} {progress : LineProgress} {session : Session Memory}
    {offered : Offering Memory} (offers : Offers host line actions progress session offered) :
    HandedOn session.state offered.invocations offered.session.state := by
  induction offers with
  | nil progress session => exact .nil session.state
  | @passed action _ _ session _ _ tried _ ih =>
      have state := trial_state host line action session
      rw [tried] at state
      rw [← state]
      exact ih
  | @failed action _ _ session last _ tried =>
      have state := trial_state host line action session
      rw [tried] at state
      rw [← state]
      exact .nil last.state
  | @raised action _ _ session call _ tried _ =>
      have state := trial_state host line action session
      rw [tried] at state
      rw [← state.1]
      exact .cons (.nil call.after.state)
  | @ended action _ _ session call _ tried _ _ =>
      have state := trial_state host line action session
      rw [tried] at state
      rw [← state.1]
      exact .cons (.nil call.after.state)
  | @returned action _ _ session call result _ tried _ _ _ ih =>
      have state := trial_state host line action session
      rw [tried] at state
      rw [regarding_state] at ih
      rw [← state.1]
      exact .cons ih

/-- Each call of an execution finds the state that the call before it has left. -/
theorem execution_handedOn (host : Host Memory) (actions : List Action) (line : Line)
    (session : Session Memory) :
    HandedOn session.state (execution host actions line session).invocations
      (execution host actions line session).after.state :=
  (offering_offers host line actions .start (session.noting (.executing line))).handedOn

/-- A line is handled only by actions that accept it. -/
theorem Offers.invocations {line : Line} {progress : LineProgress} {session : Session Memory}
    {offered : Offering Memory} (offers : Offers host line actions progress session offered)
    {call : Invocation Memory} (member : call ∈ offered.invocations) :
    call.action ∈ actions ∧ call.action.accepts line.toValue = true ∧
      call = invocation host call.action call.arguments call.session := by
  have own {action : Action} {others : List Action} {session : Session Memory}
      {first : Invocation Memory} (tried : trial host line action session = .invoked first) :
      first.action ∈ action :: others ∧ first.action.accepts line.toValue = true ∧
        first = invocation host first.action first.arguments first.session := by
    have state := trial_state host line action session
    rw [tried] at state
    obtain ⟨-, accepted, made⟩ := state
    have same : first.action = action := by
      rw [made]
      rfl
    rw [same]
    exact ⟨List.mem_cons_self, accepted, made⟩
  induction offers with
  | nil progress session => cases member
  | passed _ _ ih =>
      obtain ⟨inside, rest⟩ := ih member
      exact ⟨List.mem_cons_of_mem _ inside, rest⟩
  | failed _ => cases member
  | raised tried _ =>
      rw [List.mem_singleton.mp member]
      exact own tried
  | ended tried _ _ =>
      rw [List.mem_singleton.mp member]
      exact own tried
  | returned tried _ _ _ ih =>
      rcases List.mem_cons.mp member with rfl | later
      · exact own tried
      · obtain ⟨inside, rest⟩ := ih later
        exact ⟨List.mem_cons_of_mem _ inside, rest⟩

/-- Whether turns follow one another from a session on to a last state: each executes its line where
the turn before has been left without a line at hand, and the last may be a cleanup. -/
inductive Follows (host : Host Memory) (actions : List Action) :
    Session Memory → List (Turn Memory) → State → Prop where
  | nil (session : Session Memory) : Follows host actions session [] session.state
  | cleanUp {session : Session Memory} {turn : Turn Memory} :
      turn.toExecution = execution host actions finishLine session →
      Follows host actions session [turn] turn.after.state
  | line {session : Session Memory} {turn : Turn Memory} {others : List (Turn Memory)}
      {last : State} :
      turn.toExecution = execution host actions turn.line (session.withLine turn.line) →
      Follows host actions turn.after.withoutLine others last →
      Follows host actions session (turn :: others) last

theorem failureCourse_follows (finishStarted : Bool) (failure : Failure)
    (session : Session Memory) :
    Follows host actions session (failureCourse host actions finishStarted failure session).turns
      (failureCourse host actions finishStarted failure session).session.state := by
  unfold failureCourse
  split
  · rename_i fault
    have ended : (cleanUpCourse host actions fault session).session.state =
        (cleanUpTurn host actions session).after.state := by
      unfold cleanUpCourse
      simp only []
      split <;> rfl
    rw [cleanUpCourse_turns, ended]
    exact .cleanUp rfl
  · exact .nil session

/-- The turns of a course follow one another. -/
theorem course_follows (host : Host Memory) (actions : List Action) (fuel : Nat)
    (queue : List Line) (finishStarted : Bool) (session : Session Memory) :
    Follows host actions session (course host actions fuel queue finishStarted session).turns
      (course host actions fuel queue finishStarted session).session.state := by
  induction fuel generalizing queue finishStarted session with
  | zero => cases queue <;> exact .nil session
  | succ fuel ih =>
      cases queue with
      | nil => exact .nil session
      | cons line queue =>
          cases finished : (turnOf host actions line queue session).result with
          | ok outcome =>
              rw [course_cons_of_ok finished]
              exact .line rfl (ih _ _ _)
          | error failure =>
              rw [course_cons_of_error finished]
              exact .line rfl (failureCourse_follows _ _ _)

namespace Follows

theorem toExecution_eq {session : Session Memory} {turns : List (Turn Memory)} {last : State}
    (follows : Follows host actions session turns last) {turn : Turn Memory}
    (member : turn ∈ turns) :
    turn.toExecution = execution host actions turn.line turn.session := by
  have started {line : Line} {start : Session Memory}
      (same : turn.toExecution = execution host actions line start) :
      turn.toExecution = execution host actions turn.line turn.session := by
    have own : turn.line = line := congrArg Execution.line same
    have place : turn.session = start := congrArg Execution.session same
    rw [own, place, same]
  induction follows with
  | nil session => cases member
  | cleanUp executed =>
      obtain rfl := List.mem_singleton.mp member
      exact started executed
  | line executed rest ih =>
      rcases List.mem_cons.mp member with rfl | later
      · exact started executed
      · exact ih later

/-- The calls of a turn are of actions that accept its line. -/
theorem invocations {session : Session Memory} {turns : List (Turn Memory)} {last : State}
    (follows : Follows host actions session turns last) {turn : Turn Memory}
    (member : turn ∈ turns) {call : Invocation Memory} (called : call ∈ turn.invocations) :
    call.action ∈ actions ∧ call.action.accepts turn.line.toValue = true ∧
      call = invocation host call.action call.arguments call.session := by
  have same := congrArg Execution.invocations (follows.toExecution_eq member)
  rw [same] at called
  exact (offering_offers host turn.line actions .start _).invocations called

theorem handedOn {session : Session Memory} {turns : List (Turn Memory)} {last : State}
    (follows : Follows host actions session turns last) {turn : Turn Memory}
    (member : turn ∈ turns) : HandedOn turn.session.state turn.invocations turn.after.state := by
  have handed := execution_handedOn host actions turn.line turn.session
  rw [← follows.toExecution_eq member] at handed
  exact handed

/-- Behind each turn but a cleanup the others follow from where it has been left. -/
theorem behind {session : Session Memory} {turns front back : List (Turn Memory)}
    {turn : Turn Memory} {last : State} (follows : Follows host actions session turns last)
    (split : turns = front ++ turn :: back) :
    back = [] ∨ Follows host actions turn.after.withoutLine back last := by
  induction follows generalizing front with
  | nil session =>
      exact absurd split.symm
        (List.append_ne_nil_of_right_ne_nil front (List.cons_ne_nil turn back))
  | cleanUp executed =>
      cases front with
      | nil => exact Or.inl (List.cons.inj split).2.symm
      | cons earlier front =>
          exact absurd (List.cons.inj split).2.symm
            (List.append_ne_nil_of_right_ne_nil front (List.cons_ne_nil turn back))
  | line executed rest ih =>
      cases front with
      | nil =>
          obtain ⟨rfl, rfl⟩ := List.cons.inj split
          exact Or.inr rest
      | cons earlier front => exact ih (List.cons.inj split).2

/-- What holds between lines, and for each line while it is executed, holds in all calls and at the
end, if it starts to hold, a line at hand turns the one into the other, and all calls preserve it
while their line is executed. -/
theorem invariant {session : Session Memory} {turns : List (Turn Memory)} {last : State}
    (follows : Follows host actions session turns last)
    (Between : State → Prop) (Within : Line → State → Prop)
    (enter : ∀ line session, Between session.state →
      Within line (Session.withLine session line : Session Memory).state)
    (leave : ∀ line session, Within line session.state →
      Between (Session.withoutLine session : Session Memory).state)
    (start : Between session.state)
    (preserved : ∀ turn ∈ turns, ∀ call ∈ turn.invocations,
      Within turn.line call.session.state → Within turn.line call.after.state) :
    (∀ turn ∈ turns, ∀ call ∈ turn.invocations, Within turn.line call.session.state) ∧
      (Between last ∨ Within finishLine last) := by
  have executed {turn : Turn Memory} {line : Line} {place : Session Memory}
      (same : turn.toExecution = execution host actions line place)
      (entered : Within line place.state)
      (calls : ∀ call ∈ turn.invocations,
        Within turn.line call.session.state → Within turn.line call.after.state) :
      (∀ call ∈ turn.invocations, Within turn.line call.session.state) ∧
        Within line turn.after.state := by
    have own : turn.line = line := congrArg Execution.line same
    have handed := execution_handedOn host actions line place
    rw [← same] at handed
    rw [own] at calls ⊢
    exact handed.invariant (Within line) entered calls
  induction follows with
  | nil session => exact ⟨List.forall_mem_nil _, Or.inl start⟩
  | @cleanUp session turn same =>
      obtain ⟨within, left⟩ := executed same (enter finishLine session start)
        (preserved turn (List.mem_singleton_self turn))
      refine ⟨?_, Or.inr left⟩
      intro other member
      rw [List.mem_singleton.mp member]
      exact within
  | @line session turn others last same rest ih =>
      obtain ⟨own, later⟩ := List.forall_mem_cons.mp preserved
      obtain ⟨within, left⟩ := executed same (enter turn.line session start) own
      obtain ⟨behind, final⟩ := ih (leave turn.line turn.after left) later
      exact ⟨List.forall_mem_cons.mpr ⟨within, behind⟩, final⟩

end Follows

end LineScript.Run
