import LineScript.Proofs.Run.InStep
import LineScript.Proofs.Run.Uses
import LineScript.Proofs.Vocabulary.Repetition

/-!
# Runs and the runs before them

Runs do not leak into each other through their engine. If the registrations of an engine can be
resolved again, and its matchers and handlers know nothing but what they are given, then a run comes
to the same however often the engine has been prepared and run before, and however these runs have
ended (`LineScript.Run.comes_after_iff`).
-/

namespace LineScript

variable {Memory : Type} {host : Host Memory} {base : Engine} {Kept : Memory → Prop}

/-- Whether two worlds have the same engine, and memories of some kind. -/
structure World.Sharing (shared : Engine) (Kept : Memory → Prop) (world other : World Memory) :
    Prop where
  engine : world.engine = shared
  engine' : other.engine = shared
  memory : Kept world.memory
  memory' : Kept other.memory

theorem overlooksNotices_sharing (shared : Engine) (Kept : Memory → Prop) :
    OverlooksNotices (World.Sharing shared Kept) := by
  intro world other next next' alike alike' sharing
  refine ⟨alike.engine.trans sharing.engine, alike'.engine.trans sharing.engine', ?_, ?_⟩
  · rw [alike.memory]
    exact sharing.memory
  · rw [alike'.memory]
    exact sharing.memory'

/-- Whether the actions of an engine know nothing but what they are given: when the engine is ready,
what they do depends on the line, the arguments and the state alone, and leaves the engine as it
is. -/
def Engine.Forgetful (host : Host Memory) (base : Engine) (Kept : Memory → Prop) : Prop :=
  ∀ actions, Registration.Accumulate host base Kept [] base.registrations (.ok actions) →
    ∀ action ∈ actions, Run.ActsOver host (World.Sharing (base.readyWith actions) Kept) action

/-- Whether a use of an engine prepares it, or runs a script that can be read without touching the
engine. -/
inductive Use.Runs (host : Host Memory) (base : Engine) (Kept : Memory → Prop) : Use → Prop where
  | prepare (fuel : Nat) : Runs host base Kept (.prepare fuel)
  | run {fuel : Nat} {source : Value} (state : State) :
      Stays base Kept (List (Nat × Line)) (Run.scriptLines host fuel source) →
      Runs host base Kept (.run fuel source state)

namespace Run

section Fuel

variable {fuel : Nat} {source : Value}

theorem error_ne_outOfFuel {α β : Type} {failure : Failure}
    (ended : (.error failure : Except Failure α) ≠ .error .outOfFuel) :
    (.error failure : Except Failure β) ≠ .error .outOfFuel := by
  simpa using ended

/-- With more fuel an approval that ends asks the same. -/
theorem approvalQuestions_add_fuel {start : World Memory}
    (ended : ((approve host fuel source).run start).1 ≠ .error .outOfFuel) (more : Nat) :
    approvalQuestions host (fuel + more) source start =
      approvalQuestions host fuel source start := by
  have reading := scriptLines_add_fuel host fuel more source start
  rcases read : (scriptLines host fuel source).run start with ⟨failure | lines, listed⟩
  · rw [approve_run_of_unread read] at ended
    rw [read] at reading
    have again := reading (error_ne_outOfFuel ended)
    rw [approvalQuestions_of_unread read, approvalQuestions_of_unread again]
  · rw [read] at reading
    have again := reading (by simp)
    have preparing := Engine.prepare_add_fuel host fuel more listed
    rcases prepared : (Engine.prepare host fuel).run listed with ⟨failure | actions, ready⟩
    · rw [approve_run_of_unprepared read prepared] at ended
      rw [prepared] at preparing
      have again' := preparing (error_ne_outOfFuel ended)
      rw [approvalQuestions_of_unprepared read prepared,
        approvalQuestions_of_unprepared again again']
    · rw [prepared] at preparing
      rw [approvalQuestions_of_prepared read prepared,
        approvalQuestions_of_prepared again (preparing (by simp))]

/-- With more fuel a run that ends has the same events. -/
theorem runEvents_add_fuel {session : Session Memory}
    (ended : ((script host fuel source).run session).1 ≠ .error .outOfFuel) (more : Nat) :
    runEvents host (fuel + more) source session = runEvents host fuel source session := by
  have approving := approve_add_fuel host fuel more source session.world
  have asking (approval : ((approve host fuel source).run session.world).1 ≠ .error .outOfFuel) :=
    approvalQuestions_add_fuel approval more
  rcases approved : (approve host fuel source).run session.world with
    ⟨failure | ⟨actions, lines⟩, world⟩
  · rw [script_run_of_refused approved] at ended
    rw [approved] at approving asking
    rw [runEvents_of_refused approved, runEvents_of_refused (approving (error_ne_outOfFuel ended)),
      asking (error_ne_outOfFuel ended)]
  · rw [script_run_of_approved approved] at ended
    rw [approved] at approving asking
    rw [runEvents_of_approved approved, runEvents_of_approved (approving (by simp)),
      asking (by simp)]
    unfold runCourse at ended ⊢
    rw [course_add_fuel ended]

end Fuel

/-- Whether a run of a script, given enough fuel, has some result, leaves some state, and asks
matchers and calls handlers as some events say. -/
structure Comes (host : Host Memory) (source : Value) (session : Session Memory)
    (result : Except Failure Unit) (left : State) (events : List Event) : Prop where
  ended : result ≠ .error .outOfFuel
  runs : ∃ fuel, ((script host fuel source).run session).1 = result ∧
    ((script host fuel source).run session).2.state = left ∧
    runEvents host fuel source session = events

section Engines

variable (repeats : ∀ registration ∈ base.registrations, ∀ fuel,
    Repeats base Kept (List Action) (Registration.resolve host fuel registration))
  (forgetful : base.Forgetful host Kept)

include repeats forgetful

/-- Runs in two worlds agree, however far the engine has been prepared in each of them, if they read
the script alike and the preparations come to the same. -/
theorem runsAgree_of_underway {fuel : Nat} {source : Value} {state : State}
    {world other listed listed' : World Memory} {lines : List (Nat × Line)}
    (read : (scriptLines host fuel source).run world = (.ok lines, listed))
    (read' : (scriptLines host fuel source).run other = (.ok lines, listed'))
    (underway : Engine.Underway host base Kept listed)
    (underway' : Engine.Underway host base Kept listed')
    (same : ((Engine.prepare host fuel).run listed).1 =
      ((Engine.prepare host fuel).run listed').1) :
    RunsAgree host (fun _ => true) fuel source ⟨state, world⟩ ⟨state, other⟩ ∧
      Engine.Underway host base Kept ((script host fuel source).run ⟨state, world⟩).2.world := by
  have prepares := Engine.prepare_underway repeats fuel underway
  have prepares' := Engine.prepare_underway repeats fuel underway'
  rcases one : (Engine.prepare host fuel).run listed with ⟨answer, ready⟩
  rcases two : (Engine.prepare host fuel).run listed' with ⟨answer', ready'⟩
  rw [one] at prepares
  rw [two] at prepares'
  rw [one, two] at same
  obtain rfl : answer = answer' := same
  rcases answer with failure | actions
  · refine ⟨runsAgree_of_unprepared rfl read read' one two, ?_⟩
    rw [script_run_of_refused (approve_run_of_unprepared read one)]
    exact prepares.underway
  · have acts := forgetful actions (prepares.accumulate (by simp))
    have sharing : World.Sharing (base.readyWith actions) Kept ready ready' :=
      ⟨prepares.ready actions rfl, prepares'.ready actions rfl, prepares.underway.memory,
        prepares'.underway.memory⟩
    have overlooks : OverlooksNotices (World.Sharing (base.readyWith actions) Kept) :=
      overlooksNotices_sharing _ _
    have inStep (line : Line) : InStep host (World.Sharing (base.readyWith actions) Kept)
        (fun _ => true) line actions actions := .refl overlooks acts
    have state' : (⟨state, world⟩ : Session Memory).state =
        (⟨state, other⟩ : Session Memory).state := rfl
    obtain ⟨agree, after⟩ := script_inStep overlooks inStep state' read read' one two sharing
    exact ⟨agree, prepares.underway.of_engine (after.engine.trans sharing.engine.symm) after.memory⟩

/-- A use of an engine leaves it prepared up to some registration. -/
theorem perform_underway {use : Use} (runs : use.Runs host base Kept) {world : World Memory}
    (underway : Engine.Underway host base Kept world) :
    Engine.Underway host base Kept ((use.perform host).run world).2 := by
  cases runs with
  | prepare fuel =>
      have after := (Engine.prepare_underway repeats fuel underway).underway
      unfold Use.perform
      simp only []
      rcases prepared : (Engine.prepare host fuel).run world with ⟨failure | actions, last⟩
      all_goals rw [prepared] at after
      · rw [run_bind_of_error prepared]
        exact after
      · rw [run_bind_of_ok prepared]
        exact after
  | @run fuel source state reads =>
      have after := underway.of_engine (reads.engine world underway.toWithin)
        (reads.memory world underway.toWithin)
      change Engine.Underway host base Kept ((script host fuel source).run ⟨state, world⟩).2.world
      rcases read : (scriptLines host fuel source).run world with ⟨failure | lines, listed⟩
      all_goals rw [read] at after
      · rw [script_run_of_refused (approve_run_of_unread read)]
        exact after
      · exact (runsAgree_of_underway repeats forgetful read read after after rfl).2

theorem after_underway {row : List Use} (runs : ∀ use ∈ row, use.Runs host base Kept)
    {world : World Memory} (underway : Engine.Underway host base Kept world) :
    Engine.Underway host base Kept (world.after host row) := by
  induction row generalizing world with
  | nil => exact underway
  | cons use row ih =>
      obtain ⟨own, rest⟩ := List.forall_mem_cons.mp runs
      exact ih rest (perform_underway repeats forgetful own underway)

/-- What a run comes to does not depend on how far its engine has been prepared. -/
theorem comes_of_underway {source : Value}
    (read : ∀ fuel, Repeats base Kept (List (Nat × Line)) (scriptLines host fuel source))
    {world other : World Memory} (underway : Engine.Underway host base Kept world)
    (underway' : Engine.Underway host base Kept other) {state left : State}
    {result : Except Failure Unit} {events : List Event}
    (comes : Comes host source ⟨state, world⟩ result left events) :
    Comes host source ⟨state, other⟩ result left events := by
  obtain ⟨ended, fuel, rfl, rfl, rfl⟩ := comes
  have after := underway.of_engine ((read fuel).engine world underway.toWithin)
    ((read fuel).memory world underway.toWithin)
  have after' := underway'.of_engine ((read fuel).engine other underway'.toWithin)
    ((read fuel).memory other underway'.toWithin)
  have same := (read fuel).same world other underway.toWithin underway'.toWithin
  rcases one : (scriptLines host fuel source).run world with ⟨outcome, listed⟩
  rcases two : (scriptLines host fuel source).run other with ⟨outcome', listed'⟩
  rw [one] at after
  rw [two] at after'
  rw [one, two] at same
  obtain rfl : outcome = outcome' := same
  -- Enough fuel to read the script and to prepare the engine, in each of the two worlds.
  obtain ⟨more, agree⟩ : ∃ more,
      RunsAgree host (fun _ => true) (fuel + more) source ⟨state, world⟩ ⟨state, other⟩ := by
    rcases outcome with failure | lines
    · exact ⟨0, runsAgree_of_unread rfl one two⟩
    · have all := (Engine.prepare_underway repeats fuel after).accumulate
      rcases prepared : (Engine.prepare host fuel).run listed with ⟨answer, ready⟩
      rw [prepared] at all
      have certain : answer ≠ .error .outOfFuel := by
        rintro rfl
        rw [script_run_of_refused (approve_run_of_unprepared one prepared)] at ended
        exact ended rfl
      obtain ⟨ready', enough, settled⟩ :=
        Engine.prepare_settles repeats (all certain) certain after'
      have reading := scriptLines_add_fuel host fuel enough source world
      have reading' := scriptLines_add_fuel host fuel enough source other
      have preparing := Engine.prepare_add_fuel host fuel enough listed
      rw [one] at reading
      rw [two] at reading'
      rw [prepared] at preparing
      refine ⟨enough, (runsAgree_of_underway repeats forgetful (reading (by simp))
        (reading' (by simp)) after after' ?_).1⟩
      rw [preparing certain, settled _ (Nat.le_add_left enough fuel)]
  obtain ⟨result, left, events⟩ := agree
  have run := script_add_fuel host fuel more source ⟨state, world⟩ ended
  rw [run] at result left
  rw [List.filter_true, List.filter_true, runEvents_add_fuel ended] at events
  exact ⟨ended, fuel + more, result.symm, left.symm, events.symm⟩

end Engines

/-- **Runs do not leak into each other.** Take an engine whose registrations can be resolved again,
and whose matchers and handlers know nothing but what they are given. However often it has been
prepared and run before, and however this has ended, a run of a script comes to the same as with the
new engine: with enough fuel it has the same result, leaves the same state, and asks the same
matchers and calls the same handlers, one after the other. -/
theorem comes_after_iff (actions : base.actions = []) (resolved : base.resolved = 0)
    (repeats : ∀ registration ∈ base.registrations, ∀ fuel,
      Repeats base Kept (List Action) (Registration.resolve host fuel registration))
    (forgetful : base.Forgetful host Kept) {row : List Use}
    (runs : ∀ use ∈ row, use.Runs host base Kept) {source : Value}
    (read : ∀ fuel, Repeats base Kept (List (Nat × Line)) (scriptLines host fuel source))
    {start new : World Memory} (begins : start.engine = base) (kept : Kept start.memory)
    (unused : new.engine = base) (kept' : Kept new.memory) {state left : State}
    {result : Except Failure Unit} {events : List Event} :
    Comes host source ⟨state, start.after host row⟩ result left events ↔
      Comes host source ⟨state, new⟩ result left events := by
  have fresh {world : World Memory} (engine : world.engine = base) (kept : Kept world.memory) :
      Engine.Underway host base Kept world := by
    subst engine
    exact .of_new ⟨rfl, rfl, kept⟩ resolved actions
  have used := after_underway repeats forgetful runs (fresh begins kept)
  exact ⟨comes_of_underway repeats forgetful read used (fresh unused kept'),
    comes_of_underway repeats forgetful read (fresh unused kept') used⟩

/-- Count something. -/
def tally : Query Nat Unit :=
  modifyThe (World Nat) fun world => { world with memory := world.memory + 1 }

/-- A host that counts its calls. Its functions match the line that is their name. As handlers they
return nothing, but two of them fail, and as generators they make an action for each of these. -/
def tallying : Host Nat where
  callMatcher function line := do
    tally
    match line with
    | .text content => return .ready (if content = function.name then .list [] else .null)
    | _ => return .ready .null
  callHandler function _ := do
    tally
    match function.id with
    | 0 => return .ready .null
    | 1 => throw (.fault .missingArgument)
    | _ => throw (.abort "KeyboardInterrupt" "")
  callGenerator _ := do
    tally
    return .list [.action (Action.ofName "fail" (.call ⟨1, "fail"⟩) false),
      .action (Action.ofName "stop" (.call ⟨2, "stop"⟩) false)]
  await _ := return .null
  next _ := return none
  sleep _ := return ()
  print _ := return ()
  readKey := return none

/-- What this host does comes to the same whatever it has counted. -/
theorem worksAlike_tallying (shared : Engine) :
    tallying.WorksAlike (World.Sharing shared fun _ => True) := by
  have sequential := sequential_respects (World.Sharing shared fun _ : Nat => True)
  have counts : Respects (World.Sharing shared fun _ => True) Unit tally :=
    fun _ _ sharing => ⟨rfl, sharing.engine, sharing.engine', trivial, trivial⟩
  refine
    { callMatcher := fun function line => sequential.andThen counts fun _ => ?_
      callGenerator := fun function => sequential.map counts _
      await := fun _ => sequential.pure _
      next := fun _ => sequential.pure _
      sleep := fun _ => sequential.pure _
      print := fun _ => sequential.pure _
      readKey := sequential.pure _
      callHandler := fun function arguments =>
        (sequential_respects _).andThen counts.liftOver fun _ => ?_ }
  · split
    · exact sequential.pure _
    · exact sequential.pure _
  · split
    · exact (sequential_respects _).pure _
    · exact (sequential_respects _).throw _
    · exact (sequential_respects _).throw _

/-- An engine with a function for a registration, and an action. -/
def counted : Engine where
  options := ⟨.bool false, []⟩
  registrations := [.callable ⟨0, "make"⟩, .action (Action.ofName "leaf" (.call ⟨0, "leaf"⟩) false)]

/-- Uses of this engine that are cut off or fail: while registrations are resolved, before any line
is executed, in a handler with an error, and in a handler with an interrupt. -/
def failing : List Use :=
  [.prepare 2, .run 9 (.list [.text "bogus"]) [], .run 9 (.list [.text "fail"]) [("n", .null)],
    .run 9 (.list [.text "stop"]) []]

/-- After these uses a script runs as with the new engine. -/
theorem comes_after_iff_tallying :
    (∃ events, Comes tallying (.list [.text "leaf"])
      ⟨[], World.after tallying ⟨counted, [], 0⟩ failing⟩ (.ok ()) [] events) ∧
      (World.after tallying ⟨counted, [], 0⟩ failing).memory ≠ 0 := by
  have steady : ∀ registration ∈ counted.registrations,
      Registration.Steady tallying counted (fun _ => True) registration := by
    unfold counted
    simp only [List.forall_mem_cons]
    refine ⟨.callable ⟨⟨fun _ _ => rfl, fun _ _ => trivial⟩, fun _ _ _ _ => rfl⟩ ?_, .leaf rfl,
      List.forall_mem_nil _⟩
    rintro start value last - ⟨⟩
    refine .list ?_
    simp only [List.forall_mem_cons]
    exact ⟨.leaf rfl, .leaf rfl, List.forall_mem_nil _⟩
  have forgetful : counted.Forgetful tallying fun _ => True :=
    fun actions _ action _ => actsOver_of_worksAlike (worksAlike_tallying _)
      (overlooksNotices_sharing _ _) action
  have read (content : String) (fuel : Nat) :
      Repeats counted (fun _ => True) (List (Nat × Line))
        (scriptLines tallying fuel (.list [.text content])) :=
    (sequential_repeats _ _).pure _
  have runs : ∀ use ∈ failing, use.Runs tallying counted fun _ => True := by
    unfold failing
    simp only [List.forall_mem_cons]
    exact ⟨.prepare 2, .run _ (read "bogus" 9).toStays, .run _ (read "fail" 9).toStays,
      .run _ (read "stop" 9).toStays, List.forall_mem_nil _⟩
  refine ⟨⟨runEvents tallying 9 (.list [.text "leaf"]) ⟨[], counted, [], 0⟩, ?_⟩, ?_⟩
  · have unused : (⟨counted, [], 0⟩ : World Nat).engine = counted := rfl
    refine (comes_after_iff rfl rfl
      (fun registration member => (steady registration member).repeats) forgetful runs
      (read "leaf") unused trivial unused trivial).mpr ?_
    exact ⟨by simp, 9, rfl, rfl, rfl⟩
  · decide

end Run

end LineScript
