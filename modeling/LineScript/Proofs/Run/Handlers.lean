import LineScript.Proofs.Run.Handing
import LineScript.Proofs.Run.Macros

/-!
# The handlers of a line

A line is offered to the actions one after the other, and what has been found so far is carried
along, until one of them ends the line. The same is said here without the loop. Each action has a
*trial*, in the session that the trial before it leaves. The trials that are made are the shortest
row of them that ends with one that fails or whose handler returns DONE. What the line leads to is
its *verdict*, read off the results of all handlers that have been called
(`LineScript.Run.executeLine_handlers`).
-/

namespace LineScript

/-- Whether an item is a line of a script: all items are, but for the empty text. -/
def Value.isFilled : Value → Bool
  | .text content => !content.isEmpty
  | _ => true

theorem Script.linesOf_eq (items : List Value) :
    linesOf items = (items.filter Value.isFilled).map Line.ofValue := by
  induction items with
  | nil => rfl
  | cons item items ih =>
      by_cases empty : item = .text ""
      · subst empty
        rw [linesOf_empty, ih]
        rfl
      · have filled : item.isFilled = true := by
          cases item with
          | text content =>
              have other : content ≠ "" := fun same => empty (congrArg Value.text same)
              simpa [Value.isFilled] using other
          | _ => rfl
        rw [linesOf_cons empty, ih, List.filter_cons_of_pos filled, List.map_cons]

/-- The items that a replacement is cut into. -/
def Replacement.pieces : Replacement → List Value
  | .sentinel mark => [.sentinel mark]
  | .text content =>
    (Text.segments content.toList).map fun segment => .text (String.ofList segment)
  | .items members => members

/-- The lines of a replacement are those that its pieces stand for, without the empty ones. -/
theorem Replacement.lines_eq (replacement : Replacement) :
    replacement.lines = (replacement.pieces.filter Value.isFilled).map Line.ofValue := by
  cases replacement with
  | sentinel mark => rfl
  | text content => exact Script.linesOf_eq _
  | items members => exact Script.linesOf_eq _

namespace Run

variable {Memory : Type} {host : Host Memory} {line : Line}

/-- Whether a result is DONE. -/
def isDone : Value → Bool
  | .sentinel .done => true
  | _ => false

theorem isDone_iff (result : Value) : isDone result = true ↔ result = .sentinel .done := by
  constructor
  · intro done
    unfold isDone at done
    split at done
    · rfl
    · cases done
  · rintro rfl
    rfl

theorem endsLine_eq_isDone (result : Value) : endsLine result = isDone result := by
  cases result with
  | sentinel mark => cases mark <;> rfl
  | text content =>
      cases empty : content.isEmpty <;>
        simp [endsLine, isDone, Replacement.ofValue?, Replacement.isDone, empty]
  | list items => cases items <;> rfl
  | tuple items => cases items <;> rfl
  | _ => rfl

/-- The result that a call returns, if it does not fail. -/
def Invocation.value? (call : Invocation Memory) : Option Value :=
  call.result.toOption

namespace Trial

/-- The call of the handler, if a trial comes to one. -/
def call? : Trial Memory → Option (Invocation Memory)
  | .invoked call => some call
  | _ => none

/-- The failure of a trial: of the matcher, of the arguments, or of the handler. -/
def failure? : Trial Memory → Option Failure
  | .passed _ => none
  | .failed failure _ => some failure
  | .invoked call =>
    match call.result with
    | .ok _ => none
    | .error failure => some failure

/-- Whether no further action is tried behind a trial: it fails, or its handler returns DONE. -/
def stops : Trial Memory → Bool
  | .passed _ => false
  | .failed _ _ => true
  | .invoked call =>
    match call.result with
    | .ok result => isDone result
    | .error _ => true

/-- The session in which the next action is tried. -/
def after : Trial Memory → Session Memory
  | .passed session => session
  | .failed _ session => session
  | .invoked call =>
    match call.result with
    | .ok result => regarding call.after result
    | .error _ => call.after

theorem eq_invoked_of_call? {trial : Trial Memory} {call : Invocation Memory}
    (comes : trial.call? = some call) : trial = .invoked call := by
  cases trial with
  | invoked other => exact congrArg Trial.invoked (Option.some.inj comes)
  | _ => cases comes

/-- A trial stops when it fails and when its handler returns DONE. -/
theorem stops_iff (trial : Trial Memory) :
    trial.stops = true ↔ trial.failure?.isSome = true ∨
      ∃ call, trial.call? = some call ∧ call.result = .ok (.sentinel .done) := by
  cases trial with
  | passed session => simp [stops, failure?, call?]
  | failed failure session => simp [stops, failure?]
  | invoked call =>
      cases returned : call.result with
      | error failure => simp [stops, failure?, returned]
      | ok result => simp [stops, failure?, call?, returned, isDone_iff]

end Trial

/-- The trials of all actions on a line, each in the session that the trial before it leaves. -/
def trials (host : Host Memory) (line : Line) : List Action → Session Memory → List (Trial Memory)
  | [], _ => []
  | action :: others, session =>
    trial host line action session ::
      trials host line others (trial host line action session).after

/-- The trials that are made: the shortest row of them that ends with the first one that stops, and
all of them if none stops. -/
def tried (host : Host Memory) (line : Line) (actions : List Action) (session : Session Memory) :
    List (Trial Memory) :=
  (trials host line actions session).take
    ((trials host line actions session).findIdx Trial.stops + 1)

/-- The session that the last of some trials leaves. -/
def leftBy (session : Session Memory) (row : List (Trial Memory)) : Session Memory :=
  (row.getLast?.map Trial.after).getD session

/-- What a line leads to when handlers have returned some results: the first of them that is a
control value, or a text or row that is not empty, replaces the line. -/
def verdict (line : Line) (results : List Value) : Except Fault LineOutcome :=
  match results.findSome? Replacement.ofValue?, line with
  | some (.sentinel .done), _ => .ok .stopLine
  | some (.sentinel .finish), _ => .ok .stopScript
  | _, .sentinel .finish => .ok .stopScript
  | _, .sentinel .done => .ok .stopLine
  | some replacement, .text _ =>
    .ok (.rewrite ((replacement.pieces.filter Value.isFilled).map Line.ofValue))
  | none, .text content =>
    if results.isEmpty then .error (.script (.unrecognizedLine content)) else .ok .proceed

section Offering

theorem tried_cons (action : Action) (others : List Action) (session : Session Memory) :
    tried host line (action :: others) session =
      if (trial host line action session).stops then [trial host line action session]
      else trial host line action session ::
        tried host line others (trial host line action session).after := by
  unfold tried
  rw [trials, List.findIdx_cons]
  cases (trial host line action session).stops with
  | true => rfl
  | false => rfl

theorem leftBy_cons (session : Session Memory) (first : Trial Memory)
    (row : List (Trial Memory)) : leftBy session (first :: row) = leftBy first.after row := by
  unfold leftBy
  rw [List.getLast?_cons]
  cases row.getLast? <;> rfl

/-- What is known of a line after some results: they recognize it, and the first of them that can
replaces it. -/
theorem foldl_after (progress : LineProgress) (results : List Value) :
    results.foldl LineProgress.after progress =
      ⟨progress.recognized || !results.isEmpty,
        progress.replacement.or (results.findSome? Replacement.ofValue?)⟩ := by
  induction results generalizing progress with
  | nil => simp
  | cons result results ih =>
      rw [List.foldl_cons, ih, List.findSome?_cons]
      unfold LineProgress.after
      cases Replacement.ofValue? result <;> simp

theorem outcome_foldl_after (line : Line) (results : List Value) :
    outcome line (results.foldl LineProgress.after .start) = verdict line results := by
  rw [foldl_after]
  unfold outcome verdict LineProgress.start
  simp only [Bool.false_or, Option.none_or]
  rcases results.findSome? Replacement.ofValue? with _ | ⟨_ | _⟩ | content | members <;>
    rcases line with text | ⟨_ | _⟩ <;> try rfl
  · cases results <;> rfl
  · exact congrArg (Except.ok ∘ LineOutcome.rewrite) (Replacement.lines_eq _)
  · exact congrArg (Except.ok ∘ LineOutcome.rewrite) (Replacement.lines_eq _)

/-- A result that is DONE is not noted. -/
theorem regarding_of_isDone {result : Value} (done : isDone result = true)
    (session : Session Memory) : regarding session result = session := by
  rw [(isDone_iff result).mp done]
  rfl

/-- What offering a line comes to can be read off the trials that are made. -/
theorem offering_eq (host : Host Memory) (line : Line) (actions : List Action)
    (progress : LineProgress) (session : Session Memory) :
    offering host line actions progress session =
      { invocations := (tried host line actions session).filterMap Trial.call?
        result :=
          match (tried host line actions session).findSome? Trial.failure? with
          | some failure => .error failure
          | none => .ok ((((tried host line actions session).filterMap Trial.call?).filterMap
              Invocation.value?).foldl LineProgress.after progress)
        session := leftBy session (tried host line actions session) } := by
  induction actions generalizing progress session with
  | nil => rfl
  | cons action others ih =>
      rw [offering, tried_cons]
      cases made : trial host line action session with
      | passed next =>
          simp only [Trial.stops, Trial.after, Bool.false_eq_true, ↓reduceIte, leftBy_cons]
          exact ih progress next
      | failed failure next => rfl
      | invoked call =>
          cases returned : call.result with
          | error failure =>
              simp [Trial.stops, Trial.call?, Trial.failure?, Trial.after, leftBy, returned]
          | ok result =>
              have value : call.value? = some result := by
                rw [Invocation.value?, returned]
                rfl
              simp only [endsLine_eq_isDone, Trial.stops, returned]
              cases done : isDone result with
              | true =>
                  simp [Trial.call?, Trial.failure?, Trial.after, leftBy, returned, value,
                    regarding_of_isDone done]
              | false =>
                  rw [ih]
                  simp [Trial.call?, Trial.failure?, Trial.after, leftBy_cons, returned, value,
                    Offering.behind]

end Offering

section Calls

/-- A trial comes to a call when the action accepts the line and its matcher takes something from
it, and the call is made with that. -/
theorem of_trial_invoked {action : Action} {session : Session Memory} {call : Invocation Memory}
    (made : trial host line action session = .invoked call) :
    call.action = action ∧ action.accepts line.toValue = true ∧
      ∃ taken, (action.matched host line).run session.world =
          (.ok (some taken), call.session.world) ∧
        argumentsFor action line taken call.session.state = .ok call.arguments ∧
        (Action.handle host action.handler call.arguments).run call.session =
          (call.result, call.after) := by
  unfold trial at made
  split at made
  · rename_i accepted
    rcases asked : (action.matched host line).run session.world with ⟨failure | _ | taken, world⟩
    · simp only [asked] at made
      cases made
    · simp only [asked] at made
      cases made
    · simp only [asked] at made
      cases given : argumentsFor action line taken session.state with
      | error fault =>
          simp only [given] at made
          cases made
      | ok arguments =>
          simp only [given] at made
          cases made
          exact ⟨rfl, accepted, taken, rfl, given, rfl⟩
  · cases made

theorem of_trial_passed {action : Action} {session next : Session Memory}
    (made : trial host line action session = .passed next)
    (accepted : action.accepts line.toValue = true) :
    ((action.matched host line).run session.world).1 = .ok none := by
  unfold trial at made
  rw [if_pos accepted] at made
  rcases asked : (action.matched host line).run session.world with ⟨failure | _ | taken, world⟩
  · simp only [asked] at made
    cases made
  · rfl
  · simp only [asked] at made
    split at made <;> cases made

theorem exists_of_mem_tried {actions : List Action} {session : Session Memory}
    {made : Trial Memory} (member : made ∈ tried host line actions session) :
    ∃ action ∈ actions, ∃ place, made = trial host line action place := by
  induction actions generalizing session with
  | nil => cases member
  | cons action others ih =>
      rw [tried_cons] at member
      split at member
      · rw [List.mem_singleton.mp member]
        exact ⟨action, List.mem_cons_self, session, rfl⟩
      · rcases List.mem_cons.mp member with rfl | later
        · exact ⟨action, List.mem_cons_self, session, rfl⟩
        · obtain ⟨other, inside, place, same⟩ := ih later
          exact ⟨other, List.mem_cons_of_mem action inside, place, same⟩

/-- The handlers that are called belong to actions in their order. -/
theorem sublist_of_tried (actions : List Action) (session : Session Memory) :
    (((tried host line actions session).filterMap Trial.call?).map Invocation.action).Sublist
      actions := by
  induction actions generalizing session with
  | nil => exact List.Sublist.slnil
  | cons action others ih =>
      rw [tried_cons]
      cases made : trial host line action session with
      | passed next => exact (ih next).cons action
      | failed failure next => exact List.nil_sublist _
      | invoked call =>
          have own := (of_trial_invoked made).1
          split
          · exact own ▸ (List.nil_sublist others).cons_cons call.action
          · exact own ▸ (ih _).cons_cons call.action

/-- No trial is made behind one that stops. -/
theorem tried_pairwise (actions : List Action) (session : Session Memory) :
    (tried host line actions session).Pairwise fun earlier _ => earlier.stops = false := by
  induction actions generalizing session with
  | nil => exact List.Pairwise.nil
  | cons action others ih =>
      rw [tried_cons]
      split
      · exact List.pairwise_singleton _ _
      · rename_i goesOn
        exact List.pairwise_cons.mpr ⟨fun _ _ => Bool.eq_false_iff.mpr goesOn, ih _⟩

/-- Whether an action accepts a line and matches it in a world. -/
def takes (host : Host Memory) (line : Line) (world : World Memory) (action : Action) : Bool :=
  action.accepts line.toValue &&
    match ((action.matched host line).run world).1 with
    | .ok (some _) => true
    | _ => false

theorem takes_congr {action : Action} (pure : AnswersPurely host action)
    (world other : World Memory) : takes host line world action = takes host line other action := by
  obtain ⟨answer, answers⟩ := pure line
  unfold takes
  rw [(answers world).1, (answers other).1]

/-- With pure matchers, the handlers that are called are those of the first of the actions that take
the line, and of all of them if no trial stops. -/
theorem calls_of_pure {actions : List Action} (pure : ∀ action ∈ actions, AnswersPurely host action)
    (world : World Memory) (session : Session Memory) :
    ((tried host line actions session).filterMap Trial.call?).map Invocation.action <+:
        actions.filter (takes host line world) ∧
      ((∀ trial ∈ tried host line actions session, trial.stops = false) →
        ((tried host line actions session).filterMap Trial.call?).map Invocation.action =
          actions.filter (takes host line world)) := by
  induction actions generalizing session with
  | nil => exact ⟨List.prefix_rfl, fun _ => rfl⟩
  | cons action others ih =>
      obtain ⟨own, rest⟩ := List.forall_mem_cons.mp pure
      rw [tried_cons]
      cases made : trial host line action session with
      | passed next =>
          have skipped : ¬takes host line world action = true := by
            rw [takes_congr own world session.world]
            intro taken
            obtain ⟨accepted, matched⟩ := Bool.and_eq_true_iff.mp taken
            rw [of_trial_passed made accepted] at matched
            cases matched
          obtain ⟨front, all⟩ := ih rest next
          rw [List.filter_cons_of_neg skipped]
          refine ⟨front, fun goOn => all fun trial member => ?_⟩
          exact goOn trial (List.mem_cons_of_mem _ member)
      | failed failure next =>
          refine ⟨List.nil_prefix, fun goOn => ?_⟩
          cases goOn _ List.mem_cons_self
      | invoked call =>
          obtain ⟨same, accepted, taken, asked, -⟩ := of_trial_invoked made
          have taking : takes host line world action = true := by
            rw [takes_congr own world session.world]
            unfold takes
            rw [accepted, asked]
            rfl
          rw [List.filter_cons_of_pos taking]
          obtain ⟨front, all⟩ := ih rest (Trial.invoked call).after
          split
          · rename_i stops
            refine ⟨same ▸ List.cons_prefix_cons.mpr ⟨rfl, List.nil_prefix⟩, fun goOn => ?_⟩
            rw [goOn _ List.mem_cons_self] at stops
            cases stops
          · refine ⟨same ▸ List.cons_prefix_cons.mpr ⟨rfl, front⟩, fun goOn => ?_⟩
            exact same ▸ congrArg (List.cons call.action)
              (all fun trial member => goOn trial (List.mem_cons_of_mem _ member))

end Calls

/-- **The handlers of a line.** The actions are tried on a line in their order, until a trial fails
or its handler returns DONE. The handlers that are called belong to actions that accept the line and
whose matchers take something from it; each one gets the state that the one before it has left, and
what has been taken, or else the line, dereferenced unless the action is not to. None of them but
the last returns DONE. If the matchers are pure, these are the first of the actions that take the
line, and all of them unless a trial fails or a handler returns DONE. A trial that fails is what the
line comes to; otherwise it comes to the verdict on the results. -/
theorem executeLine_handlers (host : Host Memory) (actions : List Action) (line : Line)
    (session : Session Memory) :
    let start := session.noting (.executing line)
    let made := tried host line actions start
    let calls := made.filterMap Trial.call?
    (executeLine host actions line).run session =
        (match made.findSome? Trial.failure? with
          | some failure => .error failure
          | none => (verdict line (calls.filterMap Invocation.value?)).mapError .fault,
          leftBy start made) ∧
      (execution host actions line session).invocations = calls ∧
      (∀ trial ∈ made, trial.stops = true ↔ trial.failure?.isSome = true ∨
        ∃ call, trial.call? = some call ∧ call.result = .ok (.sentinel .done)) ∧
      HandedOn session.state calls (leftBy start made).state ∧
      (calls.map Invocation.action).Sublist actions ∧
      (∀ call ∈ calls, call.action.accepts line.toValue = true ∧
        ∃ taken world,
          (call.action.matched host line).run world = (.ok (some taken), call.session.world) ∧
          argumentsFor call.action line taken call.session.state = .ok call.arguments ∧
          (Action.handle host call.action.handler call.arguments).run call.session =
            (call.result, call.after)) ∧
      (calls.Pairwise fun earlier _ => earlier.result ≠ .ok (.sentinel .done)) ∧
      ((∀ action ∈ actions, AnswersPurely host action) → ∀ world,
        calls.map Invocation.action <+: actions.filter (takes host line world) ∧
        ((∀ trial ∈ made, trial.stops = false) →
          calls.map Invocation.action = actions.filter (takes host line world))) := by
  intro start made calls
  have record := offering_eq host line actions .start start
  have own : (execution host actions line session).invocations = calls :=
    congrArg Offering.invocations record
  have last : (execution host actions line session).after = leftBy start made :=
    congrArg Offering.session record
  refine ⟨?_, own, fun trial _ => trial.stops_iff, ?_, sublist_of_tried actions start, ?_, ?_,
    fun pure world => calls_of_pure pure world start⟩
  · rw [executeLine_run, last, execution_result, record]
    refine congrArg (Prod.mk · _) ?_
    change Except.bind (match made.findSome? Trial.failure? with
      | some failure => .error failure
      | none => .ok ((calls.filterMap Invocation.value?).foldl LineProgress.after .start)) _ = _
    cases made.findSome? Trial.failure? with
    | some failure => rfl
    | none => exact congrArg (Except.mapError _) (outcome_foldl_after line _)
  · rw [← own, ← last]
    exact execution_handedOn host actions line session
  · intro call member
    obtain ⟨trial, inside, comes⟩ := List.mem_filterMap.mp member
    obtain ⟨action, -, place, same⟩ := exists_of_mem_tried inside
    obtain rfl := Trial.eq_invoked_of_call? comes
    obtain ⟨rfl, accepted, taken, rest⟩ := of_trial_invoked same.symm
    exact ⟨accepted, taken, place.world, rest⟩
  · refine List.pairwise_filterMap.mpr ((tried_pairwise actions start).imp ?_)
    intro earlier later goesOn call comes other _ done
    have stops : earlier.stops = true := earlier.stops_iff.mpr (Or.inr ⟨call, comes, done⟩)
    exact Bool.false_ne_true (goesOn.symm.trans stops)

/-- Actions for the same line: one that replaces it, one for another line, one that ends the line,
and one that is not tried any more. -/
def parting : List Action :=
  [.ofName "part" (.line (.text "wave")) false, .ofName "meet" (.line (.text "greet")) false,
    .ofName "part" (.line (.sentinel .done)) false,
    .ofName "part" (.line (.sentinel .finish)) false]

/-- The first result replaces the line, although a later one ends it. -/
theorem executeLine_handlers_parting :
    (∀ action ∈ parting, AnswersPurely Host.ofNames action) ∧
      ((executeLine Host.ofNames parting (.text "part")).run (.ofActions parting)).1 =
        .ok (.rewrite [.text "wave"]) ∧
      ((execution Host.ofNames parting (.text "part") (.ofActions parting)).invocations.map
        Invocation.action).length = 2 ∧
      (execution Host.ofNames parting (.text "part") (.ofActions parting)).invocations.map
          Invocation.action <+:
        parting.filter (takes Host.ofNames (.text "part") (Session.ofActions parting).world) := by
  have pure : ∀ action ∈ parting, AnswersPurely Host.ofNames action := by
    intro action member
    simp only [parting, List.mem_cons, List.not_mem_nil, or_false] at member
    rcases member with rfl | rfl | rfl | rfl <;> exact answersPurely_ofName _ _ _
  obtain ⟨ran, made, -, -, -, -, -, front⟩ :=
    executeLine_handlers Host.ofNames parting (.text "part") (.ofActions parting)
  refine ⟨pure, ?_, rfl, ?_⟩
  · rw [ran]
    rfl
  · rw [made]
    exact (front pure _).1

end Run

end LineScript
