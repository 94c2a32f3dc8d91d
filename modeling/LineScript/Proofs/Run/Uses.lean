import LineScript.Proofs.Run.Execution
import LineScript.Proofs.Vocabulary.Attempts

/-!
# The uses of an engine

An engine is used by registering, preparing and running scripts, in any order, and each use may
fail. Handlers use it too while a script runs. What each of these steps keeps is kept however the
engine is used (`LineScript.Run.after_leads`). A row of uses has a record of the attempts to resolve
registrations, in which each preparation and each run has those of its own
(`LineScript.Run.exists_recordsAll`).
-/

namespace LineScript

variable {Memory : Type}

/-- Whether something may have happened to the engine that leads from one world to another. -/
def World.Progresses (host : Host Memory) (start last : World Memory) : Prop :=
  ∃ attempts, Engine.History host start attempts last

instance (host : Host Memory) : Std.Refl (World.Progresses host) :=
  ⟨fun world => ⟨[], .nil world⟩⟩

instance (host : Host Memory) : IsTrans (World Memory) (World.Progresses host) where
  trans := by
    rintro start next last ⟨first, before⟩ ⟨second, after⟩
    exact ⟨first ++ second, before.append after⟩

/-- Whether a host treats the engine as it may: handlers register, prepare the engine and run
scripts, and all else that the host does only registers. -/
structure Host.UsesEngine (host : Host Memory) : Prop extends host.OnlyRegisters where
  callHandler : ∀ function arguments,
    Leads (InvImage (World.Progresses host) Session.world) Answer
      (host.callHandler function arguments)

/-- A use of an engine. -/
inductive Use where
  | register (registration : Value)
  | registerAction (matcher handler : Value) (settings : Entries Value)
  | prepare (fuel : Nat)
  | run (fuel : Nat) (source : Value) (state : State)

/-- Use an engine. -/
def Use.perform (host : Host Memory) : Use → Query Memory Unit
  | .register registration => Query.modifyEngine fun engine => engine.register registration
  | .registerAction matcher handler settings => do
    let engine ← Query.ofExcept ((← Query.engine).registerAction matcher handler settings)
    Query.modifyEngine fun _ => engine
  | .prepare fuel => do
    let _ ← Engine.prepare host fuel
    return ()
  | .run fuel source state => fun world =>
    let (result, session) := (Run.script host fuel source).run ⟨state, world⟩
    (result, session.world)

/-- The world after some uses of its engine, whether they fail or not. -/
def World.after (host : Host Memory) (world : World Memory) (uses : List Use) : World Memory :=
  uses.foldl (fun world use => ((use.perform host).run world).2) world

theorem World.Registers.progresses {start last : World Memory} (host : Host Memory)
    (registers : start.Registers last) : start.Progresses host last :=
  ⟨[], .of_registers registers⟩

theorem Engine.exists_of_registerAction {engine next : Engine} {matcher handler : Value}
    {settings : Entries Value}
    (registered : engine.registerAction matcher handler settings = .ok next) :
    ∃ action,
      next = { engine with registrations := engine.registrations ++ [.action action] } := by
  unfold registerAction at registered
  cases refused : Action.refuseRepeated "Ottomaton.register" ["self", "matcher", "handler"]
    settings with
  | error fault =>
      rw [refused] at registered
      cases registered
  | ok _ =>
      rw [refused] at registered
      simp only [bind, Except.bind] at registered
      split at registered
      · cases registered
      · rename_i action made
        cases registered
        exact ⟨action, rfl⟩

theorem Use.perform_registerAction_of_error (host : Host Memory) {world : World Memory}
    {matcher handler : Value} {settings : Entries Value} {fault : Fault}
    (refused : world.engine.registerAction matcher handler settings = .error fault) :
    ((registerAction matcher handler settings).perform host).run world =
      (.error (.fault fault), world) := by
  unfold perform
  simp only []
  rw [run_bind_of_ok (Query.run_engine world), refused]
  rfl

theorem Use.perform_registerAction_of_ok (host : Host Memory) {world : World Memory}
    {matcher handler : Value} {settings : Entries Value} {engine : Engine}
    (registered : world.engine.registerAction matcher handler settings = .ok engine) :
    ((registerAction matcher handler settings).perform host).run world =
      (.ok (), { world with engine := engine }) := by
  unfold perform
  simp only []
  rw [run_bind_of_ok (Query.run_engine world), registered]
  rfl

theorem Use.perform_prepare_world (host : Host Memory) (fuel : Nat) (start : World Memory) :
    (((Use.prepare fuel).perform host).run start).2 =
      (Engine.preparation host fuel start).world := by
  have prepared := Engine.prepare_run host fuel start
  unfold perform
  simp only []
  cases result : (Engine.preparation host fuel start).result with
  | error failure =>
      rw [result] at prepared
      rw [run_bind_of_error prepared]
  | ok actions =>
      rw [result] at prepared
      rw [run_bind_of_ok prepared]
      rfl

/-- Whether some attempts are those that a use of an engine makes on its way from one world to
another: a preparation makes those that belong to it, and a run that can read its script makes those
of its preparation and then those that its handlers lead to. -/
inductive Use.Records (host : Host Memory) :
    Use → World Memory → List (Engine.Attempt Memory) → World Memory → Prop where
  | register {registration : Value} {start last : World Memory} :
      start.Registers last → Records host (.register registration) start [] last
  | registerAction {matcher handler : Value} {settings : Entries Value}
      {start last : World Memory} :
      start.Registers last → Records host (.registerAction matcher handler settings) start [] last
  | prepare (fuel : Nat) (start : World Memory) :
      Records host (.prepare fuel) start (Engine.preparation host fuel start).attempts
        (Engine.preparation host fuel start).world
  | unread {fuel : Nat} {source : Value} {state : State} {failure : Failure}
      {start last : World Memory} :
      (Run.scriptLines host fuel source).run start = (.error failure, last) →
      Records host (.run fuel source state) start [] last
  | run {fuel : Nat} {source : Value} {state : State} {lines : List (Nat × Line)}
      {start listed last : World Memory} {later : List (Engine.Attempt Memory)} :
      (Run.scriptLines host fuel source).run start = (.ok lines, listed) →
      Engine.History host (Engine.preparation host fuel listed).world later last →
      Records host (.run fuel source state) start
        ((Engine.preparation host fuel listed).attempts ++ later) last

/-- Whether some attempts are those that a row of uses makes, one use after the other. -/
inductive Use.RecordsAll (host : Host Memory) :
    List Use → World Memory → List (Engine.Attempt Memory) → World Memory → Prop where
  | nil (world : World Memory) : RecordsAll host [] world [] world
  | cons {use : Use} {row : List Use} {start next last : World Memory}
      {own others : List (Engine.Attempt Memory)} :
      use.Records host start own next → RecordsAll host row next others last →
      RecordsAll host (use :: row) start (own ++ others) last

/-- What a use records has happened to the engine. -/
theorem Use.Records.history {host : Host Memory} {use : Use} {start last : World Memory}
    {attempts : List (Engine.Attempt Memory)} (only : host.OnlyRegisters)
    (records : use.Records host start attempts last) :
    Engine.History host start attempts last := by
  have read (fuel : Nat) (source : Value) (start : World Memory) :
      start.Registers ((Run.scriptLines host fuel source).run start).2 :=
    Run.scriptLines_is (sequential_leads World.Registers) only.toQueriesAre fuel source start
  cases records with
  | register registers => exact .of_registers registers
  | registerAction registers => exact .of_registers registers
  | prepare fuel start => exact .of_preparation host fuel start
  | @unread fuel source _ _ _ _ unread =>
      have registers := read fuel source start
      rw [unread] at registers
      exact .of_registers registers
  | @run fuel source _ _ _ _ _ _ listing later =>
      have registers := read fuel source start
      rw [listing] at registers
      exact .registered registers (.prepared fuel later)

theorem Use.RecordsAll.history {host : Host Memory} {row : List Use} {start last : World Memory}
    {attempts : List (Engine.Attempt Memory)} (only : host.OnlyRegisters)
    (records : Use.RecordsAll host row start attempts last) :
    Engine.History host start attempts last := by
  induction records with
  | nil world => exact .nil world
  | cons own _ ih => exact (own.history only).append ih

/-- Whether whatever a host does leads to worlds that are related to those before it. -/
structure Host.KeepsTo (host : Host Memory) (Related : World Memory → World Memory → Prop) : Prop
    extends host.QueriesAre (Leads Related) where
  sleep : ∀ seconds, Leads Related Unit (host.sleep seconds)
  print : ∀ line, Leads Related Unit (host.print line)
  readKey : Leads Related (Option Char) host.readKey
  callHandler : ∀ function arguments,
    Leads (InvImage Related Session.world) Answer (host.callHandler function arguments)

namespace Run

variable {host : Host Memory}

section Related

variable {Related : World Memory → World Memory → Prop} [Std.Refl Related]
  [IsTrans (World Memory) Related]

omit [IsTrans (World Memory) Related] in
/-- All that runs are made of leads to worlds that are related to those before it if what the host
does and registering do. -/
theorem procedures_of_keepsTo (keeps : host.KeepsTo Related)
    (registering : ∀ start last : World Memory, start.Registers last →
      last.memory = start.memory → Related start last) :
    host.ProceduresAre (Leads Related) (Leads (InvImage Related Session.world)) where
  toQueriesAre := keeps.toQueriesAre
  sleep := keeps.sleep
  print := keeps.print
  readKey := keeps.readKey
  callHandler := keeps.callHandler
  note notice start := registering _ _ (registers_note notice start) rfl
  lift := Leads.lift
  attempt := id
  state := leads_state
  modifyState := leads_modifyState

/-- A run leads to worlds that are related to those before it if what the host does and preparing
the engine do. -/
theorem script_leads (keeps : host.KeepsTo Related)
    (registering : ∀ start last : World Memory, start.Registers last →
      last.memory = start.memory → Related start last)
    (preparing : ∀ fuel, Leads Related (List Action) (Engine.prepare host fuel)) (fuel : Nat)
    (source : Value) :
    Leads (InvImage Related Session.world) Unit (script host fuel source) :=
  script_is (sequential_leads _) (sequential_leads _) (procedures_of_keepsTo keeps registering)
    (preparing fuel) source

/-- A run whose script can be read prepares the engine, and then leads to a world that is related to
the one that the preparation leaves. -/
theorem script_leads_behind (keeps : host.KeepsTo Related)
    (registering : ∀ start last : World Memory, start.Registers last →
      last.memory = start.memory → Related start last)
    {fuel : Nat} {source : Value} {session : Session Memory} {lines : List (Nat × Line)}
    {listed : World Memory}
    (read : (scriptLines host fuel source).run session.world = (.ok lines, listed)) :
    Related ((Engine.prepare host fuel).run listed).2
      ((script host fuel source).run session).2.world := by
  have procedures := procedures_of_keepsTo keeps registering
  rw [script_eq]
  rcases prepared : (Engine.prepare host fuel).run listed with ⟨failure | actions, ready⟩
  · have refused := approve_run_of_unprepared read prepared
    rw [run_bind_of_error (Procedure.run_lift_of_run refused)]
    exact Std.Refl.refl ready
  · have inspected := preflight_is (sequential_leads Related) procedures.toQueriesAre
      procedures.note actions (Script.beforeFinish lines) ready
    rcases checked : (preflight host actions (Script.beforeFinish lines)).run ready with
      ⟨failure | _, last⟩
    all_goals
      rw [checked] at inspected
      have approved := approve_run_of_preflight read prepared checked
    · rw [run_bind_of_error (Procedure.run_lift_of_run approved)]
      exact inspected
    · have carried := carryOut_is (sequential_leads _) (sequential_leads _) procedures fuel actions
        ((Script.beforeFinish lines).map Prod.snd) (session.inWorld last)
      rw [run_bind_of_ok (Procedure.run_lift_of_run approved)]
      exact IsTrans.trans ready last _ inspected carried

theorem perform_leads (keeps : host.KeepsTo Related)
    (registering : ∀ start last : World Memory, start.Registers last →
      last.memory = start.memory → Related start last)
    (preparing : ∀ fuel, Leads Related (List Action) (Engine.prepare host fuel)) (use : Use) :
    Leads Related Unit (use.perform host) := by
  cases use with
  | register registration => exact fun start => registering _ _ ⟨_, rfl⟩ rfl
  | registerAction matcher handler settings =>
      intro start
      cases registered : start.engine.registerAction matcher handler settings with
      | error fault =>
          rw [Use.perform_registerAction_of_error host registered]
          exact Std.Refl.refl start
      | ok engine =>
          rw [Use.perform_registerAction_of_ok host registered]
          obtain ⟨action, rfl⟩ := Engine.exists_of_registerAction registered
          exact registering _ _ ⟨[.action action], rfl⟩ rfl
  | prepare fuel => exact (sequential_leads _).map (preparing fuel) _
  | run fuel source state =>
      exact fun start => script_leads keeps registering preparing fuel source ⟨state, start⟩

/-- However an engine is used, this leads to worlds that are related to those before it if what the
host does and preparing the engine do. -/
theorem after_leads (keeps : host.KeepsTo Related)
    (registering : ∀ start last : World Memory, start.Registers last →
      last.memory = start.memory → Related start last)
    (preparing : ∀ fuel, Leads Related (List Action) (Engine.prepare host fuel)) (row : List Use)
    (start : World Memory) : Related start (start.after host row) := by
  induction row generalizing start with
  | nil => exact Std.Refl.refl start
  | cons use row ih =>
      have first := perform_leads keeps registering preparing use start
      exact IsTrans.trans _ _ _ first (ih _)

end Related

/-- A host that uses the engine as it may leads to what may have happened to the engine. -/
theorem keepsTo_progresses (uses : host.UsesEngine) : host.KeepsTo (World.Progresses host) :=
  have registering (start last : World Memory) (registers : start.Registers last) :
      start.Progresses host last := registers.progresses host
  { callMatcher := fun function line start =>
      registering _ _ (uses.callMatcher function line start)
    callGenerator := fun function start => registering _ _ (uses.callGenerator function start)
    await := fun id start => registering _ _ (uses.await id start)
    next := fun id start => registering _ _ (uses.next id start)
    sleep := fun seconds start => registering _ _ (uses.sleep seconds start)
    print := fun line start => registering _ _ (uses.print line start)
    readKey := fun start => registering _ _ (uses.readKey start)
    callHandler := uses.callHandler }

theorem exists_records (uses : host.UsesEngine) (use : Use) (start : World Memory) :
    ∃ attempts, use.Records host start attempts ((use.perform host).run start).2 := by
  cases use with
  | register registration => exact ⟨[], .register ⟨_, rfl⟩⟩
  | registerAction matcher handler settings =>
      refine ⟨[], .registerAction ?_⟩
      cases registered : start.engine.registerAction matcher handler settings with
      | error fault =>
          rw [Use.perform_registerAction_of_error host registered]
          exact Std.Refl.refl start
      | ok engine =>
          rw [Use.perform_registerAction_of_ok host registered]
          obtain ⟨action, rfl⟩ := Engine.exists_of_registerAction registered
          exact ⟨[.action action], rfl⟩
  | prepare fuel =>
      rw [Use.perform_prepare_world]
      exact ⟨_, .prepare fuel start⟩
  | run fuel source state =>
      rcases read : (scriptLines host fuel source).run start with ⟨failure | lines, listed⟩
      · have ran : (script host fuel source).run ⟨state, start⟩ =
            (.error failure, ⟨state, listed⟩) := by
          rw [script_eq]
          exact run_bind_of_error (Procedure.run_lift_of_run (approve_run_of_unread read))
        refine ⟨[], ?_⟩
        change Use.Records host _ start [] ((script host fuel source).run ⟨state, start⟩).2.world
        rw [ran]
        exact .unread read
      · obtain ⟨later, history⟩ := @script_leads_behind _ _ _ _ _ (keepsTo_progresses uses)
          (fun _ _ registers _ => registers.progresses host) fuel source ⟨state, start⟩ lines
          listed read
        rw [Engine.prepare_run] at history
        exact ⟨_, .run read history⟩

/-- However an engine is used, there is a record of the attempts that are made. -/
theorem exists_recordsAll (uses : host.UsesEngine) (row : List Use) (start : World Memory) :
    ∃ attempts, Use.RecordsAll host row start attempts (start.after host row) := by
  induction row generalizing start with
  | nil => exact ⟨[], .nil start⟩
  | cons use row ih =>
      obtain ⟨own, first⟩ := exists_records uses use start
      obtain ⟨others, rest⟩ := ih ((use.perform host).run start).2
      exact ⟨own ++ others, .cons first rest⟩

end Run

end LineScript
