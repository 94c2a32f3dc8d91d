import LineScript.Proofs.Library.Conduct

/-!
# The cache of an engine

However an engine is used, what it holds comes from the attempts to resolve its registrations that
have succeeded, and what has been resolved is not resolved again (`LineScript.Run.uses_cached`).
-/

namespace LineScript.Run

variable {Memory : Type} {host : Host Memory}

/-- The cache of an engine. However a new engine has been used, with whatever failures, the attempts
to resolve registrations that these uses have made account for what it holds. Each attempt is an
attempt to resolve the registration whose turn it is, those that have succeeded are for the
registrations that count as resolved, each one once and in order, and what they have come to are the
actions; this holds already when any of the attempts starts. Preparing the engine makes attempts of
its own, none of which is for a registration that has been resolved. When it succeeds, all
registrations made so far are resolved. When it fails, the attempt that fails is the last one and
leaves nothing behind, and those before it have been kept. Registering that fails leaves everything
as it is. -/
theorem uses_cached (uses : host.UsesEngine) {options : Options} {start : World Memory}
    (new : start.engine = Engine.ofOptions options) (row : List Use) :
    ∃ attempts, Use.RecordsAll host row start attempts (start.after host row) ∧
      Engine.History host start attempts (start.after host row) ∧
      Engine.Cached (start.after host row).engine attempts ∧
      (∀ attempt ∈ attempts, ∃ fuel, attempt =
        Engine.attempt host fuel attempt.place attempt.registration attempt.start) ∧
      (∀ front attempt back, attempts = front ++ attempt :: back →
        Engine.Cached attempt.start.engine front) ∧
      (∀ matcher handler settings fault,
        (start.after host row).engine.registerAction matcher handler settings = .error fault →
        ((Use.registerAction matcher handler settings).perform host).run (start.after host row) =
          (.error (.fault fault), start.after host row)) ∧
      ∀ fuel result last, (Engine.prepare host fuel).run (start.after host row) = (result, last) →
        ∃ own, Engine.preparation host fuel (start.after host row) = ⟨own, result, last⟩ ∧
          Engine.History host (start.after host row) own last ∧
          Engine.Cached last.engine (attempts ++ own) ∧
          (∀ attempt ∈ own, (start.after host row).engine.resolved ≤ attempt.place) ∧
          (∀ actions, result = .ok actions →
            actions = last.engine.actions ∧
              last.engine.resolved = last.engine.registrations.length ∧
              ∀ attempt ∈ own, attempt.succeeded = true) ∧
          ∀ failure, result = .error failure →
            ∃ front back, own = front ++ back ∧
              (∀ attempt ∈ front, attempt.succeeded = true) ∧
              (back = [] ∧ failure = .outOfFuel ∨
                ∃ failed, back = [failed] ∧ failed.result = .error failure) ∧
              last.engine.actions =
                (start.after host row).engine.actions ++ front.flatMap Engine.Attempt.actions ∧
              last.engine.resolved = (start.after host row).engine.resolved + front.length := by
  obtain ⟨attempts, records⟩ := exists_recordsAll uses row start
  have only := uses.toOnlyRegisters
  have history := records.history only
  have unused : Engine.Cached start.engine ([] : List (Engine.Attempt Memory)) := by
    rw [new]
    exact Engine.cached_ofOptions options
  have cached : Engine.Cached (start.after host row).engine attempts :=
    history.cached only unused
  refine ⟨attempts, records, history, cached, fun attempt member => history.genuine member,
    fun front attempt back split => history.cached_at only unused split,
    fun matcher handler settings fault refused =>
      Use.perform_registerAction_of_error host refused, ?_⟩
  intro fuel result last prepared
  rw [Engine.prepare_run] at prepared
  obtain ⟨rfl, rfl⟩ := Prod.mk.inj prepared
  have prepares := Engine.prepares_preparation host fuel (start.after host row)
  have after := prepares.cached only cached
  refine ⟨_, rfl, .of_preparation host fuel _, after,
    fun attempt member => cached.resolved_le_place after member, ?_, ?_⟩
  · intro actions succeeds
    obtain ⟨same, all, succeeded⟩ := prepares.succeeds succeeds
    exact ⟨same, Nat.le_antisymm after.resolved_le all, succeeded⟩
  · intro failure fails
    obtain ⟨front, back, split, succeeded, ended⟩ := prepares.fails fails
    have kept : (front ++ back).filter Engine.Attempt.succeeded = front := by
      rw [List.filter_append, List.filter_eq_self.mpr succeeded]
      rcases ended with ⟨rfl, -⟩ | ⟨failed, rfl, own⟩
      · exact List.append_nil front
      · rw [List.filter_cons, (Engine.Attempt.actions_of_error own).1]
        exact List.append_nil front
    obtain ⟨actions, resolved⟩ := cached.grown after
    rw [split, kept] at actions resolved
    exact ⟨front, back, split, succeeded, ended, actions, resolved⟩

/-- A host whose functions register something without a meaning when they are called: as
generators, which make one action, and as handlers. -/
def growing : Host Unit :=
  { Host.ofNames with
    callGenerator _ := do
      Query.modifyEngine fun engine => engine.register (.bool true)
      return .action (Action.ofName "leaf" (.call ⟨0, "leaf"⟩) false)
    callHandler _ _ := do
      Query.lift (Query.modifyEngine fun engine => engine.register (.bool true))
      return .ready .null }

theorem usesEngine_growing : growing.UsesEngine where
  callMatcher function line start := by
    cases line <;> exact Std.Refl.refl start
  callGenerator _ _ := ⟨[.bool true], rfl⟩
  await _ start := Std.Refl.refl start
  next _ start := Std.Refl.refl start
  sleep _ start := Std.Refl.refl start
  print _ start := Std.Refl.refl start
  readKey start := Std.Refl.refl start
  callHandler _ _ _ := World.Registers.progresses growing ⟨[.bool true], rfl⟩

/-- The world of a new engine that does not skip comments. -/
def unused (memory : Memory) : World Memory :=
  ⟨Engine.ofOptions ⟨.bool false, []⟩, [], memory⟩

/-- The uses of an engine that registers a function, and then fails to prepare and to run. -/
def retrying : List Use :=
  [.register (.callable ⟨0, "grow"⟩), .prepare 9, .run 9 (.list [.text "leaf"]) []]

/-- The memory of a library with a generator that makes an action. Its handler registers something
without a meaning and then runs a script. -/
def extending : Library.Memory :=
  { functions := #[.generating "grow" [.plain (.dict [(.callable ⟨1, "leaf"⟩,
        .callable ⟨2, "extend"⟩)])] .returned none,
      .matching "leaf" (.equalTo (.text "leaf")) false,
      .handling "extend" [.register (.plain (.bool true)), .run (.plain (.list []))]
        (.recipe (.plain .null)) false] }

/-- What a generator registers without a meaning fails again and again, and is all that is tried
again: the generator is resolved once, and its action is kept. It is kept too when a handler
registers so and runs a script. -/
theorem uses_cached_growing :
    (∃ attempts,
      Use.RecordsAll growing retrying (unused ()) attempts ((unused ()).after growing retrying) ∧
      Engine.History growing (unused ()) attempts ((unused ()).after growing retrying) ∧
      (attempts.filter Engine.Attempt.succeeded).map Engine.Attempt.place = [0] ∧
      ∃ failed : Engine.Attempt Unit,
        (Engine.preparation growing 9 ((unused ()).after growing retrying)).attempts = [failed] ∧
        failed.result = .error (.fault (.script (.invalidRegistration "bool"))) ∧
        1 ≤ failed.place ∧
        Engine.Cached
          ((Engine.prepare growing 9).run ((unused ()).after growing retrying)).2.engine
          (attempts ++ [failed])) ∧
    ∃ attempts, Engine.History (Library.host 9 1) (unused extending) attempts
        ((unused extending).after (Library.host 9 1) retrying) ∧
      (attempts.filter Engine.Attempt.succeeded).map Engine.Attempt.place = [0] := by
  constructor
  · obtain ⟨attempts, records, history, cached, -, -, -, preparing⟩ :=
      uses_cached usesEngine_growing (rfl : (unused ()).engine = Engine.ofOptions _) retrying
    obtain ⟨own, recorded, -, after, later, -, failing⟩ := preparing 9 _ _ rfl
    have fails : ((Engine.prepare growing 9).run ((unused ()).after growing retrying)).1 =
        .error (.fault (.script (.invalidRegistration "bool"))) := by
      rfl
    obtain ⟨front, back, rfl, -, ended, -, resolved⟩ := failing _ fails
    have none : front = [] := by
      have count : 1 = 1 + front.length := resolved
      exact List.eq_nil_of_length_eq_zero (by omega)
    obtain rfl := none
    rcases ended with ⟨-, impossible⟩ | ⟨failed, rfl, result⟩
    · cases impossible
    · have tried := congrArg Engine.Preparation.attempts recorded
      exact ⟨attempts, records, history, cached.places, failed, tried, result,
        later failed (List.mem_singleton_self failed), after⟩
  · obtain ⟨attempts, -, history, cached, -⟩ := uses_cached (Library.usesEngine_host 9 1)
      (rfl : (unused extending).engine = Engine.ofOptions _) retrying
    have resolved :
        ((unused extending).after (Library.host 9 1) retrying).engine.resolved = 1 := by
      decide +kernel
    have places := cached.places
    rw [resolved] at places
    exact ⟨attempts, history, places⟩

end LineScript.Run
