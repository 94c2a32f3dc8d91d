import LineScript.Proofs.Session.Evaluation
import LineScript.Run.Script

/-!
# The execution of a line

Executing a line calls handlers one after the other. An *execution* records the line, the session
it starts in, these calls, each with its arguments and the session in which it is made, and how
and where it ends. Records are made beside the definitions that execute lines, and agree with them
(`LineScript.Run.offer_run`, `LineScript.Run.executeLine_run`).
-/

namespace LineScript.Run

variable {Memory : Type}

/-- A call of the handler of an action: the arguments, the session in which it is made, its result
and the session that it leaves. -/
structure Invocation (Memory : Type) where
  action : Action
  arguments : List Value
  session : Session Memory
  result : Except Failure Value
  after : Session Memory

/-- The call of the handler of an action with some arguments. -/
def invocation (host : Host Memory) (action : Action) (arguments : List Value)
    (session : Session Memory) : Invocation Memory where
  action := action
  arguments := arguments
  session := session
  result := ((Action.handle host action.handler arguments).run session).1
  after := ((Action.handle host action.handler arguments).run session).2

/-- The arguments for the handler of an action, when the action has taken some from a line. -/
def argumentsFor (action : Action) (line : Line) (taken : List Value) (state : State) :
    Except Fault (List Value) :=
  let arguments := if taken.isEmpty then [line.toValue] else taken
  if action.deref.truthy then state.dereferenceAll arguments else .ok arguments

/-- What an action does with a line: it is passed over, because the line is not offered to it or
does not match, it fails before its handler is called, or its handler is called. -/
inductive Trial (Memory : Type) where
  | passed (session : Session Memory)
  | failed (failure : Failure) (session : Session Memory)
  | invoked (call : Invocation Memory)

/-- Try an action on a line. -/
def trial (host : Host Memory) (line : Line) (action : Action) (session : Session Memory) :
    Trial Memory :=
  if action.accepts line.toValue then
    match (action.matched host line).run session.world with
    | (.error failure, world) => .failed failure (session.inWorld world)
    | (.ok none, world) => .passed (session.inWorld world)
    | (.ok (some taken), world) =>
      match argumentsFor action line taken session.state with
      | .error fault => .failed (.fault fault) (session.inWorld world)
      | .ok arguments => .invoked (invocation host action arguments (session.inWorld world))
  else .passed session

/-- What is known of a line after a handler has returned a result. -/
def LineProgress.after (progress : LineProgress) (result : Value) : LineProgress :=
  ⟨true, progress.replacement.or (Replacement.ofValue? result)⟩

/-- Whether a result ends a line. -/
def endsLine (result : Value) : Bool :=
  ((Replacement.ofValue? result).map Replacement.isDone).getD false

/-- The session after a result has been looked at; one that is not nothing but replaces no line is
noted. -/
def regarding (session : Session Memory) (result : Value) : Session Memory :=
  if (Replacement.ofValue? result).isNone && result.truthy then session.noting (.ignored result)
  else session

/-- What offering a line to actions comes to. -/
structure Offering (Memory : Type) where
  invocations : List (Invocation Memory)
  result : Except Failure LineProgress
  session : Session Memory

/-- An offering with a call made before it. -/
def Offering.behind (offering : Offering Memory) (call : Invocation Memory) : Offering Memory :=
  { offering with invocations := call :: offering.invocations }

/-- Offer a line to actions, with a record of the calls. -/
def offering (host : Host Memory) (line : Line) :
    List Action → LineProgress → Session Memory → Offering Memory
  | [], progress, session => ⟨[], .ok progress, session⟩
  | action :: others, progress, session =>
    match trial host line action session with
    | .passed session => offering host line others progress session
    | .failed failure session => ⟨[], .error failure, session⟩
    | .invoked call =>
      match call.result with
      | .error failure => ⟨[call], .error failure, call.after⟩
      | .ok result =>
        if endsLine result then ⟨[call], .ok (progress.after result), call.after⟩
        else
          (offering host line others (progress.after result) (regarding call.after result)).behind
            call

/-- How an offer of a line to actions goes, one action after the other. -/
inductive Offers (host : Host Memory) (line : Line) :
    List Action → LineProgress → Session Memory → Offering Memory → Prop where
  | nil (progress : LineProgress) (session : Session Memory) :
      Offers host line [] progress session ⟨[], .ok progress, session⟩
  | passed {action : Action} {others : List Action} {progress : LineProgress}
      {session next : Session Memory} {offered : Offering Memory} :
      trial host line action session = .passed next →
      Offers host line others progress next offered →
      Offers host line (action :: others) progress session offered
  | failed {action : Action} {others : List Action} {progress : LineProgress}
      {session last : Session Memory} {failure : Failure} :
      trial host line action session = .failed failure last →
      Offers host line (action :: others) progress session ⟨[], .error failure, last⟩
  | raised {action : Action} {others : List Action} {progress : LineProgress}
      {session : Session Memory} {call : Invocation Memory} {failure : Failure} :
      trial host line action session = .invoked call → call.result = .error failure →
      Offers host line (action :: others) progress session ⟨[call], .error failure, call.after⟩
  | ended {action : Action} {others : List Action} {progress : LineProgress}
      {session : Session Memory} {call : Invocation Memory} {result : Value} :
      trial host line action session = .invoked call → call.result = .ok result →
      endsLine result = true →
      Offers host line (action :: others) progress session
        ⟨[call], .ok (progress.after result), call.after⟩
  | returned {action : Action} {others : List Action} {progress : LineProgress}
      {session : Session Memory} {call : Invocation Memory} {result : Value}
      {offered : Offering Memory} :
      trial host line action session = .invoked call → call.result = .ok result →
      endsLine result = false →
      Offers host line others (progress.after result) (regarding call.after result) offered →
      Offers host line (action :: others) progress session (offered.behind call)

theorem offering_offers (host : Host Memory) (line : Line) (actions : List Action)
    (progress : LineProgress) (session : Session Memory) :
    Offers host line actions progress session (offering host line actions progress session) := by
  induction actions generalizing progress session with
  | nil => exact .nil progress session
  | cons action others ih =>
      rw [offering]
      cases tried : trial host line action session with
      | passed next => exact .passed tried (ih progress next)
      | failed failure last => exact .failed tried
      | invoked call =>
          simp only []
          cases called : call.result with
          | error failure => exact .raised tried called
          | ok result =>
              simp only []
              by_cases ended : endsLine result
              · rw [if_pos ended]
                exact .ended tried called ended
              · rw [if_neg ended]
                exact .returned tried called (Bool.eq_false_iff.mpr ended) (ih _ _)

/-- The execution of a line. -/
structure Execution (Memory : Type) where
  line : Line
  session : Session Memory
  invocations : List (Invocation Memory)
  result : Except Failure LineOutcome
  after : Session Memory

/-- Whether the line of an execution is FINISH. -/
def Execution.isFinish (executed : Execution Memory) : Bool :=
  executed.line == finishLine

/-- Execute a line, with a record of the calls. -/
def execution (host : Host Memory) (actions : List Action) (line : Line)
    (session : Session Memory) : Execution Memory :=
  let offering := offering host line actions .start (session.noting (.executing line))
  { line := line
    session := session
    invocations := offering.invocations
    result := offering.result.bind fun progress => (outcome line progress).mapError .fault
    after := offering.session }

theorem perform_run_of_error (host : Host Memory) {action : Action} {line : Line}
    {taken : List Value} {session : Session Memory} {fault : Fault}
    (refused : argumentsFor action line taken session.state = .error fault) :
    (action.perform host line taken).run session = (.error (.fault fault), session) := by
  unfold argumentsFor at refused
  unfold Action.perform
  by_cases dereferenced : action.deref.truthy
  · simp only [dereferenced, ↓reduceIte] at refused ⊢
    rw [run_bind_of_ok (Procedure.run_state session)]
    simp only [refused, run_throw]
  · simp only [dereferenced] at refused
    cases refused

/-- With arguments for its handler, an action does to a line that it matches what the handler
does. -/
theorem perform_run_of_ok (host : Host Memory) {action : Action} {line : Line}
    {taken arguments : List Value} {session : Session Memory}
    (given : argumentsFor action line taken session.state = .ok arguments) :
    (action.perform host line taken).run session =
      ((invocation host action arguments session).result,
        (invocation host action arguments session).after) := by
  unfold argumentsFor at given
  unfold Action.perform invocation
  by_cases dereferenced : action.deref.truthy
  · simp only [dereferenced, ↓reduceIte] at given ⊢
    rw [run_bind_of_ok (Procedure.run_state session)]
    simp only [given]
    rfl
  · simp only [dereferenced, Bool.false_eq_true, ↓reduceIte] at given ⊢
    cases given
    rfl

/-- An offer goes on after a result, unless the result ends the line. -/
theorem offer_result_run (host : Host Memory) (line : Line) (others : List Action)
    (progress : LineProgress) (result : Value) (session : Session Memory) :
    (match Replacement.ofValue? result with
      | none => do
        if result.truthy then Procedure.note (.ignored result)
        offer host line others ⟨true, progress.replacement⟩
      | some replacement =>
        let progress := ⟨true, progress.replacement.or (some replacement)⟩
        if replacement.isDone then return progress
        else offer host line others progress : Procedure Memory LineProgress).run session =
      if endsLine result then (.ok (progress.after result), session)
      else (offer host line others (progress.after result)).run (regarding session result) := by
  unfold endsLine regarding LineProgress.after
  cases replaced : Replacement.ofValue? result with
  | none =>
      by_cases truthy : result.truthy
      · simp [truthy, run_bind_of_ok (Procedure.run_note _ _)]
      · simp [truthy]
  | some replacement =>
      by_cases done : replacement.isDone
      · simp [done]
      · simp [done]

/-- An offer to some actions is a trial of the first of them, and then goes on with the others. -/
theorem offer_cons_run (host : Host Memory) (line : Line) (action : Action) (others : List Action)
    (progress : LineProgress) (session : Session Memory) :
    (offer host line (action :: others) progress).run session =
      match trial host line action session with
      | .passed session => (offer host line others progress).run session
      | .failed failure session => (.error failure, session)
      | .invoked call =>
        match call.result with
        | .error failure => (.error failure, call.after)
        | .ok result =>
          if endsLine result then (.ok (progress.after result), call.after)
          else (offer host line others (progress.after result)).run
            (regarding call.after result) := by
  rw [offer]
  unfold trial
  by_cases accepted : action.accepts line.toValue
  · simp only [accepted, Bool.not_true, Bool.false_eq_true, ↓reduceIte]
    have matching := Procedure.run_lift (action.matched host line) session
    rcases asked : (action.matched host line).run session.world with ⟨failure | taken, world⟩
    · rw [asked] at matching
      rw [run_bind_of_error matching]
    · rw [asked] at matching
      rw [run_bind_of_ok matching]
      cases taken with
      | none => rfl
      | some taken =>
          simp only []
          cases given : argumentsFor action line taken session.state with
          | error fault =>
              have refused : (action.perform host line taken).run (session.inWorld world) =
                  (.error (.fault fault), session.inWorld world) :=
                perform_run_of_error host given
              rw [run_bind_of_error refused]
          | ok arguments =>
              have performed : (action.perform host line taken).run (session.inWorld world) =
                  ((invocation host action arguments (session.inWorld world)).result,
                    (invocation host action arguments (session.inWorld world)).after) :=
                perform_run_of_ok host given
              simp only []
              cases handled : (invocation host action arguments (session.inWorld world)).result with
              | error failure =>
                  rw [handled] at performed
                  rw [run_bind_of_error performed]
              | ok result =>
                  rw [handled] at performed
                  rw [run_bind_of_ok performed]
                  exact offer_result_run host line others progress result _
  · simp only [accepted, Bool.not_false, Bool.false_eq_true, ↓reduceIte]

/-- Offering a line comes to what its record says. -/
theorem offer_run (host : Host Memory) (line : Line) (actions : List Action)
    (progress : LineProgress) (session : Session Memory) :
    (offer host line actions progress).run session =
      ((offering host line actions progress session).result,
        (offering host line actions progress session).session) := by
  induction actions generalizing progress session with
  | nil => rfl
  | cons action others ih =>
      rw [offer_cons_run, offering]
      cases trial host line action session with
      | passed session => exact ih progress session
      | failed failure session => rfl
      | invoked call =>
          simp only []
          cases call.result with
          | error failure => rfl
          | ok result =>
              by_cases ended : endsLine result
              · simp only [ended, ↓reduceIte]
              · simp only [ended, Bool.false_eq_true, ↓reduceIte]
                exact ih (progress.after result) (regarding call.after result)

/-- Executing a line comes to what its record says. -/
theorem executeLine_run (host : Host Memory) (actions : List Action) (line : Line)
    (session : Session Memory) :
    (executeLine host actions line).run session =
      ((execution host actions line session).result,
        (execution host actions line session).after) := by
  unfold executeLine execution
  rw [run_bind_of_ok (Procedure.run_note _ _)]
  have offered := offer_run host line actions .start (session.noting (.executing line))
  simp only []
  cases tried : (offering host line actions .start (session.noting (.executing line))).result with
  | error failure =>
      rw [tried] at offered
      rw [run_bind_of_error offered]
      rfl
  | ok progress =>
      rw [tried] at offered
      rw [run_bind_of_ok offered]
      simp only [Except.bind]
      cases outcome line progress <;> rfl

/-- FINISH leads to nothing but the end of its line or of the script. -/
theorem outcome_finishLine (progress : LineProgress) :
    outcome finishLine progress = .ok .stopLine ∨
      outcome finishLine progress = .ok .stopScript := by
  unfold outcome finishLine
  split
  · exact Or.inl rfl
  · exact Or.inr rfl
  · exact Or.inr rfl
  all_goals contradiction

theorem execution_result (host : Host Memory) (actions : List Action) (line : Line)
    (session : Session Memory) :
    (execution host actions line session).result =
      (offering host line actions .start (session.noting (.executing line))).result.bind
        fun progress => (outcome line progress).mapError .fault := rfl

/-- The execution of FINISH fails, or ends its line or the script. -/
theorem execution_finishLine_result (host : Host Memory) (actions : List Action)
    (session : Session Memory) :
    (execution host actions finishLine session).result = .ok .stopLine ∨
      (execution host actions finishLine session).result = .ok .stopScript ∨
      ∃ failure, (execution host actions finishLine session).result = .error failure := by
  rw [execution_result]
  cases (offering host finishLine actions .start
    (session.noting (.executing finishLine))).result with
  | error failure => exact Or.inr (Or.inr ⟨failure, rfl⟩)
  | ok progress =>
      simp only [Except.bind]
      rcases outcome_finishLine progress with stopped | stopped
      · rw [stopped]
        exact Or.inl rfl
      · rw [stopped]
        exact Or.inr (Or.inl rfl)

end LineScript.Run

namespace LineScript

/-- A host without memory. Its functions match the line that is their name, and return nothing
when they handle a line. -/
def Host.ofNames : Host Unit where
  callMatcher function line :=
    match line with
    | .text content =>
      return .ready (if content = function.name then .list [] else .null)
    | _ => return .ready .null
  callHandler _ _ := return .ready .null
  callGenerator _ := return .null
  await _ := return .null
  next _ := return none
  sleep _ := return ()
  print _ := return ()
  readKey := return none

/-- An action for the line that is a name. -/
def Action.ofName (name : String) (handler : Handler) (deref : Bool) : Action :=
  ⟨.callable ⟨0, name⟩, .call ⟨0, name⟩, handler, .bool deref⟩

theorem matched_ofName (name : String) (handler : Handler) (deref : Bool) (line : Line)
    (world : World Unit) :
    ((Action.ofName name handler deref).matched Host.ofNames line).run world =
      (.ok (if line = .text name then some [] else none), world) := by
  cases line with
  | sentinel mark => rfl
  | text content =>
      change (Except.ok (Matcher.arguments? (if content = name then .list [] else .null)), world) =
        (Except.ok (if Line.text content = .text name then some [] else none), world)
      by_cases same : content = name
      · rw [if_pos same, if_pos (congrArg Line.text same)]
        rfl
      · rw [if_neg same, if_neg (fun text => same (Line.text.inj text))]
        rfl

/-- An action for a control value. -/
def Action.ofSentinel (mark : Sentinel) (handler : Handler) : Action :=
  ⟨.sentinel mark, .sentinel mark, handler, .bool false⟩

/-- A session with an empty state and an engine that has some actions. -/
def Session.ofActions (actions : List Action) : Session Unit where
  state := []
  world := ⟨⟨⟨.bool false, []⟩, [], actions, 0⟩, [], ()⟩

end LineScript
