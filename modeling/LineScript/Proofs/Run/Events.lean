import LineScript.Proofs.Run.Alike
import LineScript.Proofs.Run.Transient
import Mathlib.Data.List.Forall2

/-!
# The events of a run

While lines are executed matchers are *asked* about them and handlers are *called*. Actions *act
alike* when the same is asked and called for them, with the same effect on the line and the script.
Runs with actions that act alike, in sessions that are alike, have the same result, the same events
and sessions that are alike in the end (`LineScript.Run.course_alike`).
-/

namespace LineScript

/-- What a replacement is about: a control value, or some lines. -/
def Replacement.effect : Replacement → Sentinel ⊕ List Line
  | .sentinel mark => .inl mark
  | replacement => .inr replacement.lines

theorem Replacement.isDone_eq (replacement : Replacement) :
    replacement.isDone = match replacement.effect with
      | .inl mark => mark == .done
      | .inr _ => false := by
  cases replacement with
  | sentinel mark => cases mark <;> rfl
  | text content => rfl
  | items items => rfl

namespace Run

variable {Memory : Type} {host : Host Memory}

/-- The effect that a result of a handler has on a line, if it has any. -/
def effectOf (result : Value) : Option (Sentinel ⊕ List Line) :=
  (Replacement.ofValue? result).map Replacement.effect

/-- Whether a result ends a line depends only on its effect. -/
theorem endsLine_eq (result : Value) :
    endsLine result = ((effectOf result).map fun effect =>
      match effect with
      | .inl mark => mark == .done
      | .inr _ => false).getD false := by
  unfold endsLine effectOf
  rw [Option.map_map]
  congr 2
  funext replacement
  exact replacement.isDone_eq

/-- What counts of what is known of a line: whether it is recognized, and the effect of what
replaces it. -/
def LineProgress.summary (progress : LineProgress) : Bool × Option (Sentinel ⊕ List Line) :=
  (progress.recognized, progress.replacement.map Replacement.effect)

theorem LineProgress.summary_after (progress : LineProgress) (result : Value) :
    (progress.after result).summary = (true, progress.summary.2.or (effectOf result)) := by
  unfold LineProgress.after summary
  rw [Option.map_or]
  rfl

/-- What a line leads to, by the effect of what replaces it. -/
def outcomeOf (line : Line) (recognized : Bool) :
    Option (Sentinel ⊕ List Line) → Except Fault LineOutcome
  | some (.inl .done) => .ok .stopLine
  | some (.inl .finish) => .ok .stopScript
  | effect =>
    match line, effect with
    | .sentinel .finish, _ => .ok .stopScript
    | .sentinel .done, _ => .ok .stopLine
    | .text _, some (.inr lines) => .ok (.rewrite lines)
    | .text content, _ =>
      if recognized then .ok .proceed else .error (.script (.unrecognizedLine content))

theorem outcome_eq (line : Line) (progress : LineProgress) :
    outcome line progress = outcomeOf line progress.summary.1 progress.summary.2 := by
  obtain ⟨recognized, replacement⟩ := progress
  rcases replacement with _ | ⟨_ | _⟩ | content | items <;> rcases line with content' | ⟨_ | _⟩ <;>
    rfl

/-- What happens while lines are executed: a matcher is asked about a line, or a handler that is a
function is called with some arguments and the state. -/
inductive Event where
  | asked (matcher : Matcher) (line : Line)
  | called (handler : Handler) (arguments : List Value) (state : State)

/-- The events of a call of a handler: none if the handler is a line or a row of lines. -/
def Invocation.events (call : Invocation Memory) : List Event :=
  if call.action.handler.isLiteral then []
  else [.called call.action.handler call.arguments call.session.state]

/-- The events while a line is offered to actions. -/
def offeringEvents (host : Host Memory) (line : Line) : List Action → Session Memory → List Event
  | [], _ => []
  | action :: others, session =>
    (if action.accepts line.toValue then [.asked action.matcher line] else []) ++
    match trial host line action session with
    | .passed session => offeringEvents host line others session
    | .failed _ _ => []
    | .invoked call => call.events ++
      match call.result with
      | .error _ => []
      | .ok result =>
        if endsLine result then []
        else offeringEvents host line others (regarding call.after result)

/-- The events of the execution of a line. -/
def Execution.events (host : Host Memory) (actions : List Action)
    (executed : Execution Memory) : List Event :=
  offeringEvents host executed.line actions (executed.session.noting (.executing executed.line))

/-- The events of a course. -/
def Course.events (host : Host Memory) (actions : List Action) (course : Course Memory) :
    List Event :=
  course.turns.flatMap fun turn => turn.events host actions

/-- Whether actions do the same with a line, but for what is noted. -/
inductive TrialsAlike : Trial Memory → Trial Memory → Prop where
  | passed {session other : Session Memory} :
      session.Alike other → TrialsAlike (.passed session) (.passed other)
  | failed (failure : Failure) {session other : Session Memory} :
      session.Alike other → TrialsAlike (.failed failure session) (.failed failure other)
  | invoked {call other : Invocation Memory} :
      call.events = other.events → call.result.map effectOf = other.result.map effectOf →
      call.after.Alike other.after → TrialsAlike (.invoked call) (.invoked other)

/-- Whether actions do the same with all lines: they ask the same, call the same, and have the same
effect. -/
structure ActsAlike (host : Host Memory) (first second : Action) : Prop where
  matcher : first.matcher = second.matcher
  accepts : ∀ line, first.accepts line = second.accepts line
  trial : ∀ line session other, session.Alike other →
    TrialsAlike (trial host line first session) (trial host line second other)

theorem regarding_alike (session : Session Memory) (result : Value) :
    (regarding session result).Alike session := by
  unfold regarding
  split
  · exact ⟨rfl, .noting_left _ _⟩
  · exact .refl session

/-- Whether two offers of a line come to the same. -/
structure OfferingsAlike (first second : Offering Memory) : Prop where
  result : first.result.map LineProgress.summary = second.result.map LineProgress.summary
  session : first.session.Alike second.session

/-- Actions that act alike do the same with a line that is offered to them one after the other. -/
theorem offering_alike {actions others : List Action}
    (alike : List.Forall₂ (ActsAlike host) actions others) (line : Line)
    {progress progress' : LineProgress} (known : progress.summary = progress'.summary)
    {session session' : Session Memory} (same : session.Alike session') :
    OfferingsAlike (offering host line actions progress session)
        (offering host line others progress' session') ∧
      offeringEvents host line actions session = offeringEvents host line others session' := by
  induction alike generalizing progress progress' session session' with
  | nil => exact ⟨⟨congrArg Except.ok known, same⟩, rfl⟩
  | @cons first second actions others acts _ ih =>
      unfold offering offeringEvents
      have tried := acts.trial line session session' same
      rw [acts.accepts, acts.matcher]
      generalize trial host line first session = one at tried
      generalize trial host line second session' = two at tried
      cases tried with
      | passed same =>
          obtain ⟨rest, events⟩ := ih known same
          exact ⟨rest, congrArg _ events⟩
      | failed failure same => exact ⟨⟨rfl, same⟩, rfl⟩
      | @invoked call other events result after =>
          simp only []
          rw [events]
          cases own : call.result with
          | error failure =>
              cases their : other.result with
              | error failure' =>
                  rw [own, their] at result
                  obtain rfl := Except.error.inj result
                  exact ⟨⟨rfl, after⟩, rfl⟩
              | ok value =>
                  rw [own, their] at result
                  cases result
          | ok value =>
              cases their : other.result with
              | error failure =>
                  rw [own, their] at result
                  cases result
              | ok value' =>
                  rw [own, their] at result
                  have effect : effectOf value = effectOf value' := Except.ok.inj result
                  have next :
                      (progress.after value).summary = (progress'.after value').summary := by
                    rw [LineProgress.summary_after, LineProgress.summary_after, known, effect]
                  simp only []
                  rw [endsLine_eq, endsLine_eq, effect]
                  split
                  · exact ⟨⟨congrArg Except.ok next, after⟩, rfl⟩
                  · have regarded := ((regarding_alike call.after value).trans after).trans
                      (regarding_alike other.after value').symm
                    obtain ⟨⟨rest, last⟩, later⟩ := ih next regarded
                    exact ⟨⟨rest, last⟩, by rw [later]⟩

/-- Whether two executions come to the same. -/
structure ExecutionsAlike (first second : Execution Memory) : Prop where
  result : first.result = second.result
  after : first.after.Alike second.after

theorem execution_alike {actions others : List Action}
    (alike : List.Forall₂ (ActsAlike host) actions others) (line : Line)
    {session session' : Session Memory} (same : session.Alike session') :
    ExecutionsAlike (execution host actions line session) (execution host others line session') ∧
      (execution host actions line session).events host actions =
        (execution host others line session').events host others := by
  obtain ⟨⟨result, after⟩, events⟩ := offering_alike alike line
    (rfl : LineProgress.start.summary = LineProgress.start.summary)
    (same.noting (.executing line) (.executing line))
  refine ⟨⟨?_, after⟩, events⟩
  have ended (offered : Offering Memory) :
      (offered.result.bind fun progress => (outcome line progress).mapError Failure.fault) =
        (offered.result.map LineProgress.summary).bind fun summary =>
          (outcomeOf line summary.1 summary.2).mapError .fault := by
    cases offered.result with
    | error failure => rfl
    | ok progress =>
        simp only [Except.bind, Except.map, outcome_eq]
  rw [execution_result, execution_result, ended, ended, result]

/-- Whether some events are others with events of some kind put in. -/
inductive Widened (Own : Event → Prop) : List Event → List Event → Prop where
  | nil : Widened Own [] []
  | keep (event : Event) {events others : List Event} :
      Widened Own events others → Widened Own (event :: events) (event :: others)
  | extra {event : Event} {events others : List Event} :
      Own event → Widened Own events others → Widened Own (event :: events) others

namespace Widened

variable {Own : Event → Prop}

theorem refl (events : List Event) : Widened Own events events := by
  induction events with
  | nil => exact .nil
  | cons event events ih => exact .keep event ih

theorem behind (front : List Event) {events others : List Event}
    (widened : Widened Own events others) : Widened Own (front ++ events) (front ++ others) := by
  induction front with
  | nil => exact widened
  | cons event front ih => exact .keep event ih

theorem extras {front events others : List Event} (own : ∀ event ∈ front, Own event)
    (widened : Widened Own events others) : Widened Own (front ++ events) others := by
  induction front with
  | nil => exact widened
  | cons event front ih =>
      obtain ⟨first, rest⟩ := List.forall_mem_cons.mp own
      exact .extra first (ih rest)

theorem append {front front' events others : List Event} (first : Widened Own front front')
    (second : Widened Own events others) : Widened Own (front ++ events) (front' ++ others) := by
  induction first with
  | nil => exact second
  | keep event _ ih => exact .keep event ih
  | extra own _ ih => exact .extra own ih

/-- Events of which none is of the kind that is put in are the same. -/
theorem filter_eq {events others : List Event} (widened : Widened Own events others)
    {kept : Event → Bool} (dropped : ∀ event, Own event → kept event = false) :
    events.filter kept = others.filter kept := by
  induction widened with
  | nil => rfl
  | keep event _ ih =>
      rw [List.filter_cons, List.filter_cons, ih]
  | extra own _ ih =>
      rw [List.filter_cons, dropped _ own, ih]
      rfl

/-- Events into which none is put are the same. -/
theorem eq_of_forall_not {events others : List Event} (widened : Widened Own events others)
    (none : ∀ event, ¬Own event) : events = others := by
  induction widened with
  | nil => rfl
  | keep event _ ih => exact congrArg _ ih
  | extra own _ _ => exact absurd own (none _)

end Widened

/-- Whether one course comes to the same as another one, with events of some kind put in. -/
structure Widens (host : Host Memory) (Own : Event → Prop) (actions others : List Action)
    (first second : Course Memory) : Prop where
  result : first.result = second.result
  session : first.session.Alike second.session
  events : Widened Own (first.events host actions) (second.events host others)

namespace Widens

variable {Own : Event → Prop} {actions others : List Action} {first second : Course Memory}

theorem behind (widens : Widens host Own actions others first second) {turn other : Turn Memory}
    (events : turn.events host actions = other.events host others) :
    Widens host Own actions others (first.behind turn) (second.behind other) := by
  refine ⟨widens.result, widens.session, ?_⟩
  unfold Course.events Course.behind
  rw [List.flatMap_cons, List.flatMap_cons, events]
  exact widens.events.behind _

end Widens

variable {Own : Event → Prop} {actions others : List Action}

theorem cleanUpCourse_alike (alike : List.Forall₂ (ActsAlike host) actions others) (fault : Fault)
    {session session' : Session Memory} (same : session.Alike session') :
    Widens host Own actions others (cleanUpCourse host actions fault session)
      (cleanUpCourse host others fault session') := by
  obtain ⟨⟨result, after⟩, events⟩ := execution_alike alike finishLine same
  have turns : Widened Own (Course.events host actions (cleanUpCourse host actions fault session))
      (Course.events host others (cleanUpCourse host others fault session')) := by
    unfold Course.events
    rw [cleanUpCourse_turns, cleanUpCourse_turns, List.flatMap_singleton, List.flatMap_singleton]
    change Widened Own ((execution host actions finishLine session).events host actions)
      ((execution host others finishLine session').events host others)
    rw [events]
    exact .refl _
  refine ⟨?_, ?_, turns⟩
  all_goals
    change (cleanUpTurn host actions session).result = (cleanUpTurn host others session').result
      at result
    unfold cleanUpCourse
    simp only [result]
    split
  · rfl
  · rfl
  · rfl
  · exact after
  · exact after.noting .finishFailed .finishFailed
  · exact after

theorem failureCourse_alike (alike : List.Forall₂ (ActsAlike host) actions others)
    (finishStarted : Bool) (failure : Failure) {session session' : Session Memory}
    (same : session.Alike session') :
    Widens host Own actions others (failureCourse host actions finishStarted failure session)
      (failureCourse host others finishStarted failure session') := by
  unfold failureCourse
  split
  · exact cleanUpCourse_alike alike _ same
  · exact ⟨rfl, same, .refl []⟩

theorem turn_alike (alike : List.Forall₂ (ActsAlike host) actions others) (line : Line)
    (queue queue' : List Line) {session session' : Session Memory}
    (same : session.Alike session') :
    ExecutionsAlike (turnOf host actions line queue session).toExecution
        (turnOf host others line queue' session').toExecution ∧
      (turnOf host actions line queue session).events host actions =
        (turnOf host others line queue' session').events host others :=
  execution_alike alike line (same.withLine line)

/-- Courses that begin with the same line come to the same if they do so behind it. -/
theorem course_cons_widens (alike : List.Forall₂ (ActsAlike host) actions others)
    {fuel fuel' : Nat} {line : Line} {queue queue' : List Line} {started : Bool}
    {session session' : Session Memory} (same : session.Alike session')
    (rest : ∀ outcome, (turnOf host actions line queue session).result = .ok outcome →
      Widens host Own actions others
        (course host actions fuel (queueAfter outcome queue (started || line == finishLine))
          (started || line == finishLine)
          (turnOf host actions line queue session).after.withoutLine)
        (course host others fuel' (queueAfter outcome queue' (started || line == finishLine))
          (started || line == finishLine)
          (turnOf host others line queue' session').after.withoutLine)) :
    Widens host Own actions others (course host actions (fuel + 1) (line :: queue) started session)
      (course host others (fuel' + 1) (line :: queue') started session') := by
  obtain ⟨⟨result, after⟩, events⟩ := turn_alike alike line queue queue' same
  cases done : (turnOf host actions line queue session).result with
  | ok outcome =>
      rw [course_cons_of_ok done, course_cons_of_ok (result.symm.trans done)]
      exact (rest outcome done).behind events
  | error failure =>
      rw [course_cons_of_error done, course_cons_of_error (result.symm.trans done)]
      exact (failureCourse_alike alike _ failure after.withoutLine).behind events

/-- Courses of the same lines, with actions that act alike, come to the same in sessions that are
alike. -/
theorem course_alike (alike : List.Forall₂ (ActsAlike host) actions others) (fuel : Nat)
    (queue : List Line) (started : Bool) {session session' : Session Memory}
    (same : session.Alike session') :
    Widens host Own actions others (course host actions fuel queue started session)
      (course host others fuel queue started session') := by
  induction fuel generalizing queue started session session' with
  | zero => cases queue <;> exact ⟨rfl, same, .refl []⟩
  | succ fuel ih =>
      cases queue with
      | nil => exact ⟨rfl, same, .refl []⟩
      | cons line queue =>
          refine course_cons_widens alike same fun outcome _ => ?_
          exact ih _ _ (turn_alike alike line queue queue same).1.after.withoutLine

/-- Actions that differ in their handlers alone act alike if the calls of these do. -/
theorem actsAlike_of_handlers (ignores : host.IgnoresNotices) {action : Action} {handler : Handler}
    (calls : ∀ arguments session other, session.Alike other →
      TrialsAlike (.invoked (invocation host action arguments session))
        (.invoked (invocation host { action with handler := handler } arguments other))) :
    ActsAlike host action { action with handler := handler } := by
  refine ⟨rfl, fun _ => rfl, ?_⟩
  intro line session other same
  have accepts : Action.accepts { action with handler := handler } = action.accepts := rfl
  have asks : Action.matched host { action with handler := handler } = action.matched host := rfl
  have takes : argumentsFor { action with handler := handler } = argumentsFor action := rfl
  unfold trial
  rw [accepts, asks, takes]
  by_cases accepted : action.accepts line.toValue
  · rw [if_pos accepted, if_pos accepted]
    obtain ⟨result, worlds⟩ := ignores.matched action line session.world other.world same.world
    rcases one : (action.matched host line).run session.world with ⟨answer, world⟩
    rcases two : (action.matched host line).run other.world with ⟨answer', world'⟩
    rw [one, two] at result worlds
    obtain rfl : answer = answer' := result
    rcases answer with failure | _ | taken
    · exact .failed failure (same.inWorld worlds)
    · exact .passed (same.inWorld worlds)
    · simp only [← same.state]
      cases argumentsFor action line taken session.state with
      | error fault => exact .failed (.fault fault) (same.inWorld worlds)
      | ok arguments => exact calls arguments _ _ (same.inWorld worlds)
  · rw [if_neg accepted, if_neg accepted]
    exact .passed same

/-- An action acts like itself for a host that ignores notices. -/
theorem actsAlike_refl (ignores : host.IgnoresNotices) (action : Action) :
    ActsAlike host action action := by
  refine actsAlike_of_handlers ignores fun arguments session other same => ?_
  obtain ⟨handled, after⟩ := ignores.handle action.handler arguments session other same
  refine .invoked ?_ (congrArg _ handled) after
  unfold Invocation.events invocation
  simp only [same.state]

theorem forall₂_actsAlike_refl (ignores : host.IgnoresNotices) (actions : List Action) :
    List.Forall₂ (ActsAlike host) actions actions :=
  List.forall₂_same.mpr fun action _ => actsAlike_refl ignores action

end Run

end LineScript
