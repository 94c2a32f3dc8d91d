import LineScript.Proofs.Run.Events
import LineScript.Proofs.Run.Recognition
import LineScript.Proofs.Value.Entries

/-!
# Unfolding lines

A line *unfolds* to some lines if its execution has no effect but that they come in its place. A
queue comes to the same whether such a line stands in it or the lines that it unfolds to, except
that the line takes one step more (`LineScript.Run.course_unfold`).
-/

namespace LineScript

/-- An entry that is put and taken out again leaves entries without one under its name as they
are. -/
theorem Entries.erase_put_of_get?_eq_none {α : Type} {entries : Entries α} {name : String}
    (absent : entries.get? name = none) (value : α) :
    (entries.put name value).erase name = entries := by
  induction entries with
  | nil => simp [put, erase]
  | cons entry rest ih =>
      obtain ⟨key, old⟩ := entry
      rw [get?_cons] at absent
      by_cases same : name = key
      · rw [if_pos same] at absent
        cases absent
      · rw [if_neg same] at absent
        have other : key ≠ name := Ne.symm same
        have later := ih absent
        unfold erase at later ⊢
        rw [put, if_neg other, List.filter_cons_of_pos (by simpa using other), later]

namespace Run

variable {Memory : Type} {host : Host Memory} {actions : List Action} {content : String}
  {lines : List Line} {Own : Event → Prop}

/-- Whether the state of a session holds no line at hand. -/
def LacksLine (session : Session Memory) : Prop :=
  session.state.get? State.lineName = none

theorem lacksLine_withoutLine (session : Session Memory) : LacksLine session.withoutLine :=
  Entries.get?_erase_self session.state State.lineName

theorem withoutLine_withLine {session : Session Memory} (lacks : LacksLine session)
    (content : String) : (session.withLine (.text content)).withoutLine = session :=
  congrArg (Session.mk · session.world) (Entries.erase_put_of_get?_eq_none lacks _)

/-- Whether a text line unfolds to some lines: its execution has no effect but that they come in
its place, and its events are of some kind. -/
def Unfolds (host : Host Memory) (actions : List Action) (content : String) (lines : List Line)
    (Own : Event → Prop) : Prop :=
  ∀ session : Session Memory, LacksLine session →
    ∃ outcome,
      (execution host actions (.text content) (session.withLine (.text content))).result =
        .ok outcome ∧
      (∀ queue started, queueAfter outcome queue started = lines ++ queue) ∧
      (execution host actions (.text content)
        (session.withLine (.text content))).after.withoutLine.Alike session ∧
      ∀ event ∈ (execution host actions (.text content)
        (session.withLine (.text content))).events host actions, Own event

/-- Whether an action that is asked about a line passes it, and does nothing else. -/
def Passes (host : Host Memory) (line : Line) (action : Action) : Prop :=
  action.accepts line.toValue = true → ∀ world : World Memory,
    ((action.matched host line).run world).1 = .ok none ∧
      ((action.matched host line).run world).2.Alike world

theorem trial_of_passes {line : Line} {action : Action} (passes : Passes host line action)
    (session : Session Memory) :
    ∃ next, trial host line action session = .passed next ∧ next.Alike session := by
  unfold trial
  by_cases accepted : action.accepts line.toValue
  · rw [if_pos accepted]
    obtain ⟨result, alike⟩ := passes accepted session.world
    rcases asked : (action.matched host line).run session.world with ⟨answer, world⟩
    rw [asked] at result alike
    obtain rfl : answer = .ok none := result
    exact ⟨_, rfl, (Session.Alike.refl session).inWorld alike⟩
  · rw [if_neg accepted]
    exact ⟨session, rfl, .refl session⟩

/-- Actions that pass a line leave it to the others. -/
theorem offering_of_passes {line : Line} {front : List Action}
    (passes : ∀ action ∈ front, Passes host line action) (others : List Action)
    (progress : LineProgress) (session : Session Memory) :
    ∃ next asked, next.Alike session ∧
      offering host line (front ++ others) progress session =
        offering host line others progress next ∧
      offeringEvents host line (front ++ others) session =
        asked ++ offeringEvents host line others next ∧
      ∀ event ∈ asked, ∃ action ∈ front, event = .asked action.matcher line := by
  induction front generalizing session with
  | nil => exact ⟨session, [], .refl session, rfl, rfl, List.forall_mem_nil _⟩
  | cons action front ih =>
      obtain ⟨own, rest⟩ := List.forall_mem_cons.mp passes
      obtain ⟨between, passed, first⟩ := trial_of_passes own session
      obtain ⟨next, asked, second, offered, events, asks⟩ := ih rest between
      refine ⟨next, (if action.accepts line.toValue then [.asked action.matcher line] else []) ++
        asked, second.trans first, ?_, ?_, ?_⟩
      · rw [List.cons_append, offering, passed]
        exact offered
      · rw [List.cons_append, offeringEvents, passed, List.append_assoc]
        exact congrArg _ events
      · refine List.forall_mem_append.mpr ⟨?_, ?_⟩
        · intro event member
          split at member
          · exact ⟨action, List.mem_cons_self, List.mem_singleton.mp member⟩
          · cases member
        · intro event member
          obtain ⟨other, own, same⟩ := asks event member
          exact ⟨other, List.mem_cons_of_mem action own, same⟩

/-- Whether an action that is asked about a line matches it, and does nothing else. -/
structure Matches (host : Host Memory) (line : Line) (action : Action) : Prop where
  accepts : action.accepts line.toValue = true
  matched : ∀ world : World Memory, ∃ taken,
    ((action.matched host line).run world).1 = .ok (some taken) ∧
      ((action.matched host line).run world).2.Alike world

/-- The handler of an action without dereferencing is called when the action matches. If it is a
line or a row of lines, then its answer is all that comes of it. -/
theorem trial_of_matches {line : Line} {action : Action} {result : Value}
    (matching : Matches host line action) (direct : action.deref.truthy = false)
    (literal : action.handler.isLiteral = true)
    (answers : ∀ arguments (session : Session Memory),
      ((Action.handle host action.handler arguments).run session).1 = .ok result)
    (session : Session Memory) :
    ∃ call : Invocation Memory, trial host line action session = .invoked call ∧
      call.result = .ok result ∧ call.after.Alike session ∧ call.events = [] := by
  obtain ⟨taken, matched, alike⟩ := matching.matched session.world
  rcases asked : (action.matched host line).run session.world with ⟨answer, world⟩
  rw [asked] at matched alike
  obtain rfl : answer = .ok (some taken) := matched
  refine ⟨invocation host action (if taken.isEmpty then [line.toValue] else taken)
    (session.inWorld world), ?_, answers _ _, ?_, if_pos literal⟩
  · unfold trial argumentsFor
    rw [if_pos matching.accepts, asked, direct]
    rfl
  · rw [after_of_isLiteral literal]
    exact (Session.Alike.refl session).inWorld alike

/-- A line unfolds if nothing comes of it but an outcome that puts lines in its place. -/
theorem unfolds_of_offering (ends : LineOutcome)
    (queue : ∀ others started, queueAfter ends others started = lines ++ others)
    (offered : ∀ session : Session Memory, ∃ progress last calls,
      offering host (.text content) actions .start session = ⟨calls, .ok progress, last⟩ ∧
        outcome (.text content) progress = .ok ends ∧ last.Alike session ∧
        ∀ event ∈ offeringEvents host (.text content) actions session, Own event) :
    Unfolds host actions content lines Own := by
  intro session lacks
  obtain ⟨progress, last, calls, offering, known, alike, events⟩ :=
    offered ((session.withLine (.text content)).noting (.executing (.text content)))
  refine ⟨ends, ?_, queue, ?_, events⟩
  · rw [execution_result, offering]
    exact congrArg (Except.mapError Failure.fault) known
  · have left := (alike.trans ⟨rfl, .noting_left _ _⟩ :
      last.Alike (session.withLine (.text content))).withoutLine
    rw [withoutLine_withLine lacks] at left
    unfold execution
    rw [offering]
    exact left

/-- The event that a question is. -/
def Question.event (question : Question Memory) : Event :=
  .asked question.action.matcher question.line

/-- The events of a run: those of its approval, and those of its course. -/
def runEvents (host : Host Memory) (fuel : Nat) (source : Value) (session : Session Memory) :
    List Event :=
  (approvalQuestions host fuel source session.world).map Question.event ++
    match (approve host fuel source).run session.world with
    | (.ok (actions, lines), world) =>
      (runCourse host fuel actions lines (session.inWorld world)).events host actions
    | _ => []

/-- Whether an event is a call of a handler. -/
def Event.isCall : Event → Bool
  | .asked .. => false
  | .called .. => true

/-- What an outcome does to a queue leaves its back as it is, or does not depend on the queue. -/
theorem queueAfter_append (outcome : LineOutcome) (front : List Line) (started : Bool) :
    (∃ front', ∀ back, queueAfter outcome (front ++ back) started = front' ++ back) ∨
      ∀ queue queue', queueAfter outcome queue started = queueAfter outcome queue' started := by
  cases outcome with
  | proceed => exact Or.inl ⟨front, fun _ => rfl⟩
  | stopLine => exact Or.inl ⟨front, fun _ => rfl⟩
  | rewrite lines =>
      exact Or.inl ⟨lines ++ front, fun back => (List.append_assoc lines front back).symm⟩
  | stopScript => exact Or.inr fun _ _ => rfl

/-- A queue that begins with a line that unfolds comes to what the queue with the lines in its place
comes to, after one step. -/
theorem course_unfold_head (ignores : host.IgnoresNotices)
    (unfolds : Unfolds host actions content lines Own) (fuel : Nat) (back : List Line)
    (started : Bool) {session session' : Session Memory} (lacks : LacksLine session)
    (same : session.Alike session') :
    Widens host Own actions actions
      (course host actions (fuel + 1) (.text content :: back) started session)
      (course host actions fuel (lines ++ back) started session') := by
  obtain ⟨outcome, result, queue, after, events⟩ := unfolds session lacks
  have done : (turnOf host actions (.text content) back session).result = .ok outcome := result
  have other : (started || Line.text content == finishLine) = started := Bool.or_false started
  rw [course_cons_of_ok done, other, queue]
  have rest : Widens host Own actions actions _ _ :=
    course_alike (forall₂_actsAlike_refl ignores actions) fuel (lines ++ back) started
      (after.trans same)
  exact ⟨rest.result, rest.session, rest.events.extras events⟩

/-- A queue in which a line that unfolds stands comes to the same as the queue with the lines in its
place, except that it takes one step more. -/
theorem course_unfold (ignores : host.IgnoresNotices)
    (unfolds : Unfolds host actions content lines Own) (fuel : Nat) (front back : List Line)
    (started : Bool) {session session' : Session Memory} (lacks : LacksLine session)
    (same : session.Alike session') :
    ((course host actions fuel (front ++ .text content :: back) started session).result ≠
        .error .outOfFuel →
      Widens host Own actions actions
        (course host actions fuel (front ++ .text content :: back) started session)
        (course host actions fuel (front ++ (lines ++ back)) started session')) ∧
    ((course host actions fuel (front ++ (lines ++ back)) started session').result ≠
        .error .outOfFuel →
      Widens host Own actions actions
        (course host actions (fuel + 1) (front ++ .text content :: back) started session)
        (course host actions fuel (front ++ (lines ++ back)) started session')) := by
  have self := forall₂_actsAlike_refl ignores actions
  -- A turn of a line in front does the same on both sides. It leaves the lines behind it where they
  -- are, so that they go on as before, or it drops them, and then both queues are the same.
  induction fuel generalizing front started session session' with
  | zero =>
      cases front with
      | nil =>
          exact ⟨fun ended => absurd rfl ended,
            fun _ => course_unfold_head ignores unfolds 0 back started lacks same⟩
      | cons line front => exact ⟨fun ended => absurd rfl ended, fun ended => absurd rfl ended⟩
  | succ fuel ih =>
      cases front with
      | nil =>
          refine ⟨fun ended => ?_,
            fun _ => course_unfold_head ignores unfolds (fuel + 1) back started lacks same⟩
          have unfolded := course_unfold_head ignores unfolds fuel back started lacks same
          rw [List.nil_append] at ended ⊢
          rw [unfolded.result] at ended
          rw [List.nil_append, course_add_fuel ended 1]
          exact unfolded
      | cons line front =>
          rw [List.cons_append, List.cons_append]
          have alike := turn_alike self line (front ++ .text content :: back)
            (front ++ (lines ++ back)) same
          have after := alike.1.after.withoutLine
          have next := lacksLine_withoutLine
            (turnOf host actions line (front ++ .text content :: back) session).after
          constructor
          · intro ended
            refine course_cons_widens self same fun outcome done => ?_
            rw [course_cons_of_ok done] at ended
            rcases queueAfter_append outcome front (started || line == finishLine) with
              ⟨front', splits⟩ | free
            · rw [splits] at ended ⊢
              rw [splits]
              exact (ih front' _ next after).1 ended
            · rw [free _ (front ++ (lines ++ back))]
              exact course_alike self fuel _ _ after
          · intro ended
            refine course_cons_widens self same fun outcome done => ?_
            rw [course_cons_of_ok (alike.1.result.symm.trans done)] at ended
            rcases queueAfter_append outcome front (started || line == finishLine) with
              ⟨front', splits⟩ | free
            · rw [splits] at ended ⊢
              rw [splits]
              exact (ih front' _ next after).2 ended
            · rw [free (front ++ .text content :: back) (front ++ (lines ++ back)),
                ← course_add_fuel ended 1]
              exact course_alike self (fuel + 1) _ _ after

theorem lacksLine_opening {session : Session Memory} (lacks : LacksLine session)
    (actions : List Action) : LacksLine (opening actions session) :=
  (Entries.get?_put_of_ne session.state .engine (by decide)).trans lacks

theorem opening_alike (actions others : List Action) {session session' : Session Memory}
    (same : session.Alike session') : (opening actions session).Alike (opening others session') :=
  ⟨congrArg (fun state : State => state.put State.engineName Value.engine) same.state,
    same.world.noting (.executingAgainst actions.length) (.executingAgainst others.length)⟩

theorem runCourse_alike {others : List Action}
    (alike : List.Forall₂ (ActsAlike host) actions others) (fuel : Nat) (queue : List Line)
    {session session' : Session Memory} (same : session.Alike session') :
    Widens host Own actions others (runCourse host fuel actions queue session)
      (runCourse host fuel others queue session') :=
  course_alike alike fuel _ false (opening_alike actions others same)

/-- A run of lines among which one unfolds comes to the same as the run of the lines with others in
its place, except that it takes one step more. -/
theorem runCourse_unfold (ignores : host.IgnoresNotices)
    (unfolds : Unfolds host actions content lines Own) (fuel : Nat) (front back : List Line)
    {session session' : Session Memory} (lacks : LacksLine session)
    (same : session.Alike session') :
    ((runCourse host fuel actions (front ++ .text content :: back) session).result ≠
        .error .outOfFuel →
      Widens host Own actions actions
        (runCourse host fuel actions (front ++ .text content :: back) session)
        (runCourse host fuel actions (front ++ (lines ++ back)) session')) ∧
    ((runCourse host fuel actions (front ++ (lines ++ back)) session').result ≠
        .error .outOfFuel →
      Widens host Own actions actions
        (runCourse host (fuel + 1) actions (front ++ .text content :: back) session)
        (runCourse host fuel actions (front ++ (lines ++ back)) session')) := by
  have unfolding := course_unfold ignores unfolds fuel front (back ++ [finishLine]) false
    (lacksLine_opening lacks actions) (opening_alike actions actions same)
  unfold runCourse
  rw [List.append_assoc, List.cons_append, List.append_assoc, List.append_assoc]
  exact unfolding

end Run

end LineScript
