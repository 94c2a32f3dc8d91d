import LineScript.Proofs.Run.Course

/-!
# Where failures come from

Executing lines adds two faults of its own, for an argument that names a missing entry of the
state and for a line that no action recognizes. Every other failure of a course, but that for the
lack of fuel, is one of a handler or a matcher that has been called
(`LineScript.Run.exists_origin`).
-/

namespace LineScript.Run

variable {Memory : Type}

/-- A handler that has been called for some execution, a matcher, or the execution itself is where
a failure comes from. -/
inductive Origin (host : Host Memory) (actions : List Action) (executions : List (Execution Memory))
    (failure : Failure) : Prop where
  | handler {executed : Execution Memory} {call : Invocation Memory} :
      executed ∈ executions → call ∈ executed.invocations → call.result = .error failure →
      Origin host actions executions failure
  | matcher {action : Action} {line : Line} {world : World Memory} :
      action ∈ actions → ((action.matched host line).run world).1 = .error failure →
      Origin host actions executions failure
  | reference (name : String) :
      failure = .fault (.script (.unknownReference name)) → Origin host actions executions failure
  | unrecognized (content : String) :
      failure = .fault (.script (.unrecognizedLine content)) →
      Origin host actions executions failure

theorem Origin.mono {host : Host Memory} {actions : List Action}
    {executions others : List (Execution Memory)} {failure : Failure}
    (origin : Origin host actions executions failure) (subset : executions ⊆ others) :
    Origin host actions others failure := by
  cases origin with
  | handler member called raised => exact .handler (subset member) called raised
  | matcher member raised => exact .matcher member raised
  | reference name same => exact .reference name same
  | unrecognized content same => exact .unrecognized content same

theorem dereference_error {state : State} {value : Value} {fault : Fault}
    (failed : state.dereference value = .error fault) :
    ∃ name, fault = .script (.unknownReference name) := by
  unfold State.dereference at failed
  split at failed
  · rename_i content
    split at failed
    · cases failed
    · split at failed
      · split at failed
        · cases failed
        · exact ⟨content, (Except.error.inj failed).symm⟩
      · cases failed
  · cases failed

theorem dereferenceAll_error {state : State} {values : List Value} {fault : Fault}
    (failed : state.dereferenceAll values = .error fault) :
    ∃ name, fault = .script (.unknownReference name) := by
  unfold State.dereferenceAll at failed
  induction values with
  | nil => cases failed
  | cons value values ih =>
      rw [List.mapM_cons] at failed
      cases first : state.dereference value with
      | error other =>
          rw [first] at failed
          cases failed
          exact dereference_error first
      | ok taken =>
          rw [first] at failed
          cases rest : values.mapM state.dereference with
          | error other =>
              rw [rest] at failed
              cases failed
              exact ih rest
          | ok others =>
              simp only [rest] at failed
              cases failed

theorem argumentsFor_error {action : Action} {line : Line} {taken : List Value} {state : State}
    {fault : Fault} (failed : argumentsFor action line taken state = .error fault) :
    ∃ name, fault = .script (.unknownReference name) := by
  unfold argumentsFor at failed
  by_cases dereferenced : action.deref.truthy
  · simp only [dereferenced, ↓reduceIte] at failed
    exact dereferenceAll_error failed
  · simp only [dereferenced] at failed
    cases failed

theorem trial_failed {host : Host Memory} {line : Line} {action : Action}
    {session last : Session Memory} {failure : Failure}
    (failed : trial host line action session = .failed failure last) :
    ((action.matched host line).run session.world).1 = .error failure ∨
      ∃ name, failure = .fault (.script (.unknownReference name)) := by
  unfold trial at failed
  by_cases accepted : action.accepts line.toValue
  · rw [if_pos accepted] at failed
    rcases asked : (action.matched host line).run session.world with ⟨other | taken, world⟩
    · rw [asked] at failed
      cases failed
      exact Or.inl rfl
    · rw [asked] at failed
      cases taken with
      | none => cases failed
      | some taken =>
          cases given : argumentsFor action line taken session.state with
          | ok arguments =>
              simp only [given] at failed
              cases failed
          | error fault =>
              simp only [given] at failed
              cases failed
              obtain ⟨name, rfl⟩ := argumentsFor_error given
              exact Or.inr ⟨name, rfl⟩
  · rw [if_neg accepted] at failed
    cases failed

/-- An offer to some actions fails with a failure of a handler that it calls or of a matcher, or
because an entry is missing. -/
theorem Offers.failure {host : Host Memory} {line : Line} {actions : List Action}
    {progress : LineProgress} {session : Session Memory} {offered : Offering Memory}
    {failure : Failure} (offers : Offers host line actions progress session offered)
    (failed : offered.result = .error failure) :
    (∃ call ∈ offered.invocations, call.result = .error failure) ∨
    (∃ action ∈ actions, ∃ world,
      ((action.matched host line).run world).1 = .error failure) ∨
    ∃ name, failure = .fault (.script (.unknownReference name)) := by
  induction offers with
  | nil progress session => cases failed
  | passed _ _ ih =>
      rcases ih failed with handled | ⟨other, member, world, matching⟩ | missing
      · exact Or.inl handled
      · exact Or.inr (Or.inl ⟨other, List.mem_cons_of_mem _ member, world, matching⟩)
      · exact Or.inr (Or.inr missing)
  | failed tried =>
      cases failed
      rcases trial_failed tried with matching | missing
      · exact Or.inr (Or.inl ⟨_, List.mem_cons_self, _, matching⟩)
      · exact Or.inr (Or.inr missing)
  | raised _ called =>
      cases failed
      exact Or.inl ⟨_, List.mem_singleton_self _, called⟩
  | ended _ _ _ => cases failed
  | returned _ _ _ _ ih =>
      rcases ih failed with ⟨other, member, handled⟩ | ⟨other, member, matching⟩ | missing
      · exact Or.inl ⟨other, List.mem_cons_of_mem _ member, handled⟩
      · exact Or.inr (Or.inl ⟨other, List.mem_cons_of_mem _ member, matching⟩)
      · exact Or.inr (Or.inr missing)

/-- Only a text line that no action has recognized fails in the end. -/
theorem outcome_error {line : Line} {progress : LineProgress} {fault : Fault}
    (failed : outcome line progress = .error fault) :
    ∃ content, line = .text content ∧ fault = .script (.unrecognizedLine content) ∧
      progress.recognized = false := by
  unfold outcome at failed
  split at failed
  all_goals try cases failed
  rename_i content unreplaced
  split at failed
  · cases failed
  · rename_i unrecognized
    exact ⟨content, rfl, (Except.error.inj failed).symm, Bool.eq_false_iff.mpr unrecognized⟩

/-- Where the failure of an execution comes from. -/
theorem execution_origin {host : Host Memory} {actions : List Action} {line : Line}
    {session : Session Memory} {failure : Failure}
    (failed : (execution host actions line session).result = .error failure) :
    Origin host actions [execution host actions line session] failure := by
  rw [execution_result] at failed
  cases offered :
      (offering host line actions .start (session.noting (.executing line))).result with
  | error other =>
      rw [offered] at failed
      cases failed
      rcases (offering_offers host line actions .start _).failure offered with
        ⟨call, called, raised⟩ | ⟨action, member, world, raised⟩ | ⟨name, missing⟩
      · exact .handler (List.mem_singleton_self _) called raised
      · exact .matcher member raised
      · exact .reference name missing
  | ok progress =>
      rw [offered] at failed
      simp only [Except.bind] at failed
      cases ended : outcome line progress with
      | ok outcome =>
          rw [ended] at failed
          cases failed
      | error fault =>
          rw [ended] at failed
          cases failed
          obtain ⟨content, -, rfl, -⟩ := outcome_error ended
          exact .unrecognized content rfl

/-- After a line has failed, the course fails as the line or as FINISH does. -/
theorem failureCourse_error {host : Host Memory} {actions : List Action} {finishStarted : Bool}
    {other failure : Failure} {session : Session Memory}
    (failed : (failureCourse host actions finishStarted other session).result = .error failure) :
    failure = other ∨
      (cleanUpTurn host actions session).result = .error failure ∧
        (failureCourse host actions finishStarted other session).turns =
          [cleanUpTurn host actions session] := by
  unfold failureCourse at failed ⊢
  split at failed
  · rename_i fault
    rw [cleanUpCourse_turns]
    unfold cleanUpCourse at failed
    cases ended : (cleanUpTurn host actions session).result with
    | ok outcome =>
        simp only [ended] at failed
        exact Or.inl (Except.error.inj failed).symm
    | error last =>
        simp only [ended] at failed
        cases last with
        | fault inner => exact Or.inl (Except.error.inj failed).symm
        | abort kind message =>
            cases failed
            exact Or.inr ⟨rfl, rfl⟩
        | outOfFuel =>
            cases failed
            exact Or.inr ⟨rfl, rfl⟩
  · exact Or.inl (Except.error.inj failed).symm

/-- A failure of a course, unless it is for the lack of fuel, comes from its executions. -/
theorem exists_origin {host : Host Memory} {actions : List Action} {fuel : Nat}
    {queue : List Line} {finishStarted : Bool} {session : Session Memory} {failure : Failure}
    (failed : (course host actions fuel queue finishStarted session).result = .error failure)
    (fueled : failure ≠ .outOfFuel) :
    Origin host actions (course host actions fuel queue finishStarted session).executions
      failure := by
  induction fuel generalizing queue finishStarted session with
  | zero =>
      cases queue with
      | nil => cases failed
      | cons line queue =>
          cases failed
          exact absurd rfl fueled
  | succ fuel ih =>
      cases queue with
      | nil => cases failed
      | cons line queue =>
          cases finished : (turnOf host actions line queue session).result with
          | ok outcome =>
              rw [course_cons_of_ok finished] at failed ⊢
              exact (ih failed).mono (List.subset_cons_self _ _)
          | error other =>
              rw [course_cons_of_error finished] at failed ⊢
              rcases failureCourse_error failed with rfl | ⟨ended, turns⟩
              · exact (execution_origin finished).mono
                  (List.cons_subset_cons _ (List.nil_subset _))
              · have executions : (failureCourse host actions (finishStarted || line == finishLine)
                    other (turnOf host actions line queue session).after.withoutLine).executions =
                      [execution host actions finishLine
                        (turnOf host actions line queue session).after.withoutLine] := by
                  unfold Course.executions
                  rw [turns]
                  rfl
                rw [Course.executions_behind, executions]
                exact (execution_origin ended).mono (List.subset_cons_self _ _)

end LineScript.Run
