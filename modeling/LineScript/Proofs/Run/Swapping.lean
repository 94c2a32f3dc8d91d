import LineScript.Proofs.Run.InStep
import LineScript.Proofs.Run.Macros
import LineScript.Proofs.Run.Queries
import LineScript.Proofs.Vocabulary.Attempts

/-!
# Actions that change places

Two actions are *apart* if no line is accepted and matched by both, and if asking them does nothing
but answer. When such actions are next to each other it does not matter which of them comes first:
runs with engines that differ in this agree, and leave engines that differ in this
(`LineScript.Run.script_swapped`).
-/

namespace LineScript

variable {Memory : Type} {host : Host Memory} {first second : Action}

/-- Whether two rows of actions differ in that two adjacent ones have changed places. -/
def Exchanged (first second : Action) (actions others : List Action) : Prop :=
  ∃ front back, actions = front ++ first :: second :: back ∧
    others = front ++ second :: first :: back

theorem Exchanged.append {actions others : List Action}
    (exchanged : Exchanged first second actions others) (more : List Action) :
    Exchanged first second (actions ++ more) (others ++ more) := by
  obtain ⟨front, back, rfl, rfl⟩ := exchanged
  refine ⟨front, back ++ more, ?_, ?_⟩
  · rw [List.append_assoc, List.cons_append, List.cons_append]
  · rw [List.append_assoc, List.cons_append, List.cons_append]

/-- Whether two engines have the same options, differ in that two adjacent actions have changed
places, and have the same registrations to resolve, also when more are added. -/
structure Engine.Swapped (first second : Action) (engine other : Engine) : Prop where
  options : engine.options = other.options
  waiting : ∀ added, (engine.registrations ++ added).drop engine.resolved =
    (other.registrations ++ added).drop other.resolved
  actions : Exchanged first second engine.actions other.actions

/-- Whether two worlds have the same memory, and engines in which two actions have changed
places. -/
structure World.Swapped (first second : Action) (world other : World Memory) : Prop where
  engine : world.engine.Swapped first second other.engine
  memory : world.memory = other.memory

namespace Engine.Swapped

variable {engine other : Engine}

theorem next (swapped : engine.Swapped first second other) :
    engine.registrations[engine.resolved]? = other.registrations[other.resolved]? := by
  have same := congrArg List.head? (swapped.waiting [])
  rw [List.append_nil, List.append_nil, List.head?_drop, List.head?_drop] at same
  exact same

theorem register (swapped : engine.Swapped first second other) (registration : Value) :
    (engine.register registration).Swapped first second (other.register registration) := by
  refine ⟨swapped.options, ?_, swapped.actions⟩
  intro added
  unfold Engine.register
  rw [List.append_assoc, List.append_assoc]
  exact swapped.waiting _

theorem keeping (swapped : engine.Swapped first second other) (actions : List Action) :
    (engine.keeping actions).Swapped first second (other.keeping actions) := by
  refine ⟨swapped.options, ?_, swapped.actions.append actions⟩
  intro added
  have later := congrArg (List.drop 1) (swapped.waiting added)
  rw [List.drop_drop, List.drop_drop] at later
  exact later

end Engine.Swapped

theorem overlooksNotices_swapped :
    OverlooksNotices (World.Swapped first second : World Memory → _ → Prop) := by
  intro world other next next' alike alike' swapped
  refine ⟨?_, ?_⟩
  · rw [alike.engine, alike'.engine]
    exact swapped.engine
  · rw [alike.memory, alike'.memory]
    exact swapped.memory

/-- Whether two engines have been prepared with the same failure, or with rows of actions in which
two adjacent ones have changed places. -/
inductive PreparedSwapped (first second : Action) :
    Except Failure (List Action) × World Memory → Except Failure (List Action) × World Memory →
      Prop where
  | failed (failure : Failure) {world other : World Memory} :
      world.Swapped first second other →
      PreparedSwapped first second (.error failure, world) (.error failure, other)
  | ready {actions others : List Action} {world other : World Memory} :
      Exchanged first second actions others → world.Swapped first second other →
      PreparedSwapped first second (.ok actions, world) (.ok others, other)

/-- Engines in which two actions have changed places resolve what is registered alike. -/
theorem prepare_swapped (works : host.WorksAlike (World.Swapped first second)) (fuel : Nat)
    {world other : World Memory} (swapped : world.Swapped first second other) :
    PreparedSwapped first second ((Engine.prepare host fuel).run world)
      ((Engine.prepare host fuel).run other) := by
  induction fuel generalizing world other with
  | zero => exact .failed .outOfFuel swapped
  | succ fuel ih =>
      rw [Engine.prepare_run, Engine.prepare_run, Engine.preparation, Engine.preparation,
        swapped.engine.next]
      cases other.engine.registrations[other.engine.resolved]? with
      | none => exact .ready swapped.engine.actions swapped
      | some registration =>
          obtain ⟨same, after⟩ := (Registration.resolve_is (sequential_respects _)
            works.toQueriesAre overlooksNotices_swapped.note fuel).one registration world other
              swapped
          simp only [Engine.attempt]
          rw [same]
          rcases ((Registration.resolve host fuel registration).run other).1 with
            failure | actions
          · exact .failed failure after
          · have kept : (Engine.afterKeeping
                ((Registration.resolve host fuel registration).run world).2 actions).Swapped
                  first second (Engine.afterKeeping
                    ((Registration.resolve host fuel registration).run other).2 actions) :=
              ⟨after.engine.keeping actions, after.memory⟩
            have rest := ih kept
            rw [Engine.prepare_run, Engine.prepare_run] at rest
            exact rest

namespace Run

/-- Whether an action accepts a line and matches it. -/
def Takes (host : Host Memory) (action : Action) (line : Line) (world : World Memory) : Prop :=
  action.accepts line.toValue = true ∧
    ∃ taken, ((action.matched host line).run world).1 = .ok (some taken)

/-- Whether an action has a pure matcher that does not raise. -/
structure AnswersAlways (host : Host Memory) (action : Action) : Prop where
  pure : AnswersPurely host action
  answers : ∀ line world, ∃ answer, ((action.matched host line).run world).1 = .ok answer

/-- Whether two actions have pure matchers that do not raise, and never both take a line. -/
structure Apart (host : Host Memory) (first second : Action) : Prop where
  own : AnswersAlways host first
  other : AnswersAlways host second
  disjoint : ∀ line world, ¬(Takes host first line world ∧ Takes host second line world)

/-- An action passes a line that it does not take in some world. -/
theorem AnswersAlways.passes {action : Action} (always : AnswersAlways host action) {line : Line}
    (world : World Memory) (untaken : ¬Takes host action line world) :
    Passes host line action := by
  have own : action.accepts line.toValue = true →
      ((action.matched host line).run world).1 = .ok none := by
    intro accepted
    obtain ⟨answer, answered⟩ := always.answers line world
    cases answer with
    | none => exact answered
    | some taken => exact absurd ⟨accepted, taken, answered⟩ untaken
  exact always.pure.passes own

/-- One of two actions that are apart passes a line. -/
theorem Apart.passes (apart : Apart host first second) (line : Line) (world : World Memory) :
    Passes host line first ∨ Passes host line second := by
  by_cases taken : Takes host first line world
  · right
    apply apart.other.passes world
    intro both
    exact apart.disjoint line world ⟨taken, both⟩
  · exact Or.inl (apart.own.passes world taken)

theorem matched_congr {other : Host Memory} (same : host.SameQueries other) (action : Action) :
    action.matched other = action.matched host := by
  funext line
  exact (Matcher.arguments_congr same _ _).symm

/-- Whether actions are apart depends on how lines are matched, not on what handlers do. -/
theorem Apart.congr {other : Host Memory} (same : host.SameQueries other)
    (apart : Apart host first second) : Apart other first second := by
  have always {action : Action} (own : AnswersAlways host action) :
      AnswersAlways other action := by
    refine ⟨?_, ?_⟩
    · unfold AnswersPurely
      rw [matched_congr same]
      exact own.pure
    · rw [matched_congr same]
      exact own.answers
  refine ⟨always apart.own, always apart.other, ?_⟩
  unfold Takes
  rw [matched_congr same, matched_congr same]
  exact apart.disjoint

/-- Rows of actions in which two that are apart have changed places are in step. -/
theorem inStep_exchanged (works : host.WorksAlike (World.Swapped first second))
    (apart : Apart host first second) {actions others : List Action}
    (exchanged : Exchanged first second actions others) (world : World Memory) (line : Line) :
    InStep host (World.Swapped first second) Event.isCall line actions others := by
  have overlooks : OverlooksNotices (World.Swapped first second : World Memory → _ → Prop) :=
    overlooksNotices_swapped
  have acts (action : Action) : ActsOver host (World.Swapped first second) action :=
    actsOver_of_worksAlike works overlooks action
  have silent (action : Action) : Event.isCall (.asked action.matcher line) = false := rfl
  obtain ⟨front, back, rfl, rfl⟩ := exchanged
  have rest : InStep host (World.Swapped first second) Event.isCall line back back :=
    .refl overlooks fun action _ => acts action
  refine .behind overlooks (fun action _ => acts action) ?_
  -- The action that passes the line is left out on both sides. The other one then stands in front
  -- of the same actions.
  rcases apart.passes line world with passes | passes
  · have alone := List.forall_mem_singleton.mpr passes
    have mute : ∀ action ∈ [first], Event.isCall (.asked action.matcher line) = false :=
      fun action _ => silent action
    have right := rest.skip_right overlooks alone mute
    exact (right.cons overlooks (acts second)).skip overlooks alone mute
  · have alone := List.forall_mem_singleton.mpr passes
    have mute : ∀ action ∈ [second], Event.isCall (.asked action.matcher line) = false :=
      fun action _ => silent action
    have left := rest.skip overlooks alone mute
    exact (left.cons overlooks (acts first)).skip_right overlooks alone mute

/-- Runs agree if the script is read alike, and the engines are then prepared with rows of actions
in which two that are apart have changed places. -/
theorem script_exchanged (works : host.WorksAlike (World.Swapped first second))
    (apart : Apart host first second) {fuel : Nat} {source : Value}
    {session other : Session Memory} (state : session.state = other.state)
    (read : ((scriptLines host fuel source).run session.world).1 =
      ((scriptLines host fuel source).run other.world).1)
    (prepared : PreparedSwapped first second
      ((Engine.prepare host fuel).run ((scriptLines host fuel source).run session.world).2)
      ((Engine.prepare host fuel).run ((scriptLines host fuel source).run other.world).2)) :
    RunsAgree host Event.isCall fuel source session other ∧
      (((scriptLines host fuel source).run session.world).1.isOk = true →
        ((script host fuel source).run session).2.world.Swapped first second
          ((script host fuel source).run other).2.world) := by
  rcases one : (scriptLines host fuel source).run session.world with ⟨answer, listed⟩
  rcases two : (scriptLines host fuel source).run other.world with ⟨answer', listed'⟩
  rw [one, two] at read prepared
  obtain rfl : answer = answer' := read
  rcases answer with failure | lines
  · exact ⟨runsAgree_of_unread state one two, by rintro ⟨⟩⟩
  rcases three : (Engine.prepare host fuel).run listed with ⟨result, ready⟩
  rcases four : (Engine.prepare host fuel).run listed' with ⟨result', ready'⟩
  rw [three, four] at prepared
  cases prepared with
  | failed failure swapped =>
      refine ⟨runsAgree_of_unprepared state one two three four, fun _ => ?_⟩
      rw [script_run_of_refused (approve_run_of_unprepared one three),
        script_run_of_refused (approve_run_of_unprepared two four)]
      exact swapped
  | ready exchanged swapped =>
      obtain ⟨agree, after⟩ := script_inStep overlooksNotices_swapped
        (inStep_exchanged works apart exchanged ready) state one two three four swapped
      exact ⟨agree, fun _ => after⟩

/-- Runs in sessions whose engines differ in that two actions which are apart have changed places
agree, and leave such sessions. -/
theorem script_swapped (works : host.WorksAlike (World.Swapped first second))
    (apart : Apart host first second) (fuel : Nat) (source : Value) :
    Respects (Session.Over (World.Swapped first second)) Unit (script host fuel source) := by
  intro session other paired
  obtain ⟨read, listed⟩ := scriptLines_is (sequential_respects _) works.toQueriesAre fuel source
    session.world other.world paired.world
  obtain ⟨agree, after⟩ := script_exchanged works apart paired.state read
    (prepare_swapped works fuel listed)
  refine ⟨agree.result, agree.state, ?_⟩
  rcases one : (scriptLines host fuel source).run session.world with ⟨failure | lines, world⟩
  · rcases two : (scriptLines host fuel source).run other.world with ⟨answer', world'⟩
    rw [one, two] at read listed
    obtain rfl : .error failure = answer' := read
    rw [script_run_of_refused (approve_run_of_unread one),
      script_run_of_refused (approve_run_of_unread two)]
    exact listed
  · exact after (by rw [one]; rfl)

end Run

end LineScript
