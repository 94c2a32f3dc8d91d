import LineScript.Library.Host
import LineScript.Proofs.Run.Alike
import LineScript.Proofs.Run.Beginnings
import LineScript.Proofs.Run.Queries
import LineScript.Proofs.Run.Swapping

/-!
# What declared libraries may do

Declared functions work by a few means. They use the memory and look at the options of the engine,
and handlers also use the state, register, and run scripts. So all that the host of declared
libraries does has each property that sequences inherit and that these means have: it ignores
notices, it keeps what an engine begins with, and but for its handlers it does no more to the engine
than to register.
-/

namespace LineScript

theorem Engine.preparation_congr {Memory : Type} {host other : Host Memory}
    (same : host.SameQueries other) (fuel : Nat) :
    Engine.preparation host fuel = Engine.preparation other fuel := by
  induction fuel with
  | zero => rfl
  | succ fuel ih =>
      funext world
      unfold Engine.preparation Engine.attempt
      simp only [(Registration.resolve_congr same fuel).one, ih]

/-- What happens to an engine depends on how registrations are resolved, not on what handlers do. -/
theorem World.Progresses.congr {Memory : Type} {host other : Host Memory}
    {start last : World Memory} (same : host.SameQueries other)
    (progresses : start.Progresses host last) : start.Progresses other last := by
  obtain ⟨attempts, history⟩ := progresses
  refine ⟨attempts, ?_⟩
  induction history with
  | nil world => exact .nil world
  | registered registers _ ih => exact .registered registers ih
  | prepared fuel _ ih =>
      rw [Engine.preparation_congr same] at ih ⊢
      exact .prepared fuel ih

/-- Failing with another failure. -/
theorem run_rethrow {Place α : Type} (computation : ExceptT Failure (StateM Place) α)
    (renamed : Failure → Failure) (start : Place) :
    (tryCatch computation fun failure => throw (renamed failure)).run start =
      ((computation.run start).1.mapError renamed, (computation.run start).2) := by
  rw [run_tryCatch]
  rcases computation.run start with ⟨failure | value, last⟩ <;> rfl

namespace Library

variable {Good : (α : Type) → Query Memory α → Prop}
  {Fine : (α : Type) → Procedure Memory α → Prop} {run : Value → Procedure Memory Unit}

/-- Whether the means by which recipes are followed have a property. -/
structure BuildersAre (Good : (α : Type) → Query Memory α → Prop) : Prop where
  pure : ∀ {α : Type} (value : α), Good α (pure value)
  andThen : ∀ {α β : Type} {first : Query Memory α} {next : α → Query Memory β}, Good α first →
    (∀ value, Good β (next value)) → Good β (first >>= next)
  ofExcept : ∀ {α : Type} (result : Except Fault α), Good α (Query.ofExcept result)
  options : Good Options (Engine.options <$> Query.engine)
  addFunction : ∀ function, Good Value (Memory.addFunction function)
  addPromise : ∀ promise, Good Nat (Memory.addPromise promise)
  addStream : ∀ stream asynchronous, Good Value (Memory.addStream stream asynchronous)

namespace BuildersAre

theorem map {α β : Type} (builders : BuildersAre Good) {first : Query Memory α}
    (good : Good α first) (change : α → β) :
    Good β (first >>= fun value => Pure.pure (change value)) :=
  builders.andThen good fun _ => builders.pure _

mutual

theorem make (builders : BuildersAre Good) (recipe : Recipe) : Good Value recipe.make := by
  cases recipe with
  | plain value => exact builders.pure value
  | list items => exact builders.map (builders.makeItems items) _
  | tuple items => exact builders.map (builders.makeItems items) _
  | dict entries => exact builders.map (builders.makeEntries entries) _
  | map pairs => exact builders.map (builders.makePairs pairs) _
  | object fields => exact builders.map (builders.makeEntries fields) _
  | function body => exact builders.addFunction body
  | pending result =>
      exact builders.andThen (builders.make result) fun _ =>
        builders.map (builders.addPromise _) _
  | stream items asynchronous =>
      exact builders.andThen (builders.makeItems items) fun _ => builders.addStream _ _
  | action matcher handler options settings =>
      exact builders.andThen (builders.make matcher) fun _ =>
        builders.andThen (builders.make handler) fun _ =>
          builders.andThen (builders.make options) fun _ =>
            builders.andThen (builders.makeEntries settings) fun _ =>
              builders.map (builders.ofExcept _) _
  | bundled => exact builders.pure _
  | comments => exact builders.pure _
  | option name fallback =>
      unfold Recipe.make
      change Good Value (Engine.options <$> Query.engine >>= fun options =>
        match optionOf options name with
        | some value => Pure.pure value
        | none => fallback.make)
      refine builders.andThen builders.options fun options => ?_
      split
      · exact builders.pure _
      · exact builders.make fallback
  | options settings =>
      exact builders.andThen (builders.makeEntries settings) fun _ =>
        builders.map (builders.ofExcept _) _
  | actionOptions deref => exact builders.map (builders.make deref) _

theorem makeItems (builders : BuildersAre Good) (items : List Recipe) :
    Good (List Value) (Library.makeItems items) := by
  cases items with
  | nil => exact builders.pure _
  | cons item rest =>
      exact builders.andThen (builders.make item) fun _ =>
        builders.map (builders.makeItems rest) _

theorem makeEntries (builders : BuildersAre Good) (entries : List (String × Recipe)) :
    Good (Entries Value) (Library.makeEntries entries) := by
  match entries with
  | [] => exact builders.pure _
  | (name, item) :: rest =>
      exact builders.andThen (builders.make item) fun _ =>
        builders.map (builders.makeEntries rest) _

theorem makePairs (builders : BuildersAre Good) (pairs : List (Recipe × Recipe)) :
    Good (List (Value × Value)) (Library.makePairs pairs) := by
  match pairs with
  | [] => exact builders.pure _
  | (key, item) :: rest =>
      exact builders.andThen (builders.make key) fun _ =>
        builders.andThen (builders.make item) fun _ =>
          builders.map (builders.makePairs rest) _

end

end BuildersAre

/-- Whether the means by which declared functions work have a property. -/
structure MeansAre (Good : (α : Type) → Query Memory α → Prop) : Prop where
  sequential : Sequential Good
  read : Good Memory Memory.read
  change : ∀ update, Good Unit (Memory.change update)
  options : Good Options (Engine.options <$> Query.engine)
  rethrow : ∀ {query : Query Memory Unit} (renamed : Failure → Failure), Good Unit query →
    Good Unit (tryCatch query fun failure => throw (renamed failure))

namespace MeansAre

theorem record (means : MeansAre Good) (happening : Happening) :
    Good Unit (Memory.record happening) :=
  means.change _

theorem setStream (means : MeansAre Good) (id : Nat) (stream : Stream) :
    Good Unit (Memory.setStream id stream) :=
  means.change _

theorem addFunction (means : MeansAre Good) (function : Function) :
    Good Value (Memory.addFunction function) :=
  means.sequential.andThen means.read fun _ => means.sequential.map (means.change _) _

theorem addPromise (means : MeansAre Good) (promise : Promise) :
    Good Nat (Memory.addPromise promise) :=
  means.sequential.andThen means.read fun _ => means.sequential.map (means.change _) _

theorem addStream (means : MeansAre Good) (stream : Stream) (asynchronous : Bool) :
    Good Value (Memory.addStream stream asynchronous) :=
  means.sequential.andThen means.read fun _ => means.sequential.map (means.change _) _

theorem readKey (means : MeansAre Good) : Good (Option Char) Memory.readKey :=
  means.sequential.andThen means.read fun _ =>
    means.sequential.andThen (means.change _) fun _ => Query.ofExcept_is means.sequential _

theorem builders (means : MeansAre Good) : BuildersAre Good where
  pure := means.sequential.pure
  andThen := means.sequential.andThen
  ofExcept := Query.ofExcept_is means.sequential
  options := means.options
  addFunction := means.addFunction
  addPromise := means.addPromise
  addStream := means.addStream

theorem make (means : MeansAre Good) (recipe : Recipe) : Good Value recipe.make :=
  means.builders.make recipe

theorem callMatching (means : MeansAre Good) (name : String) (rule : MatchRule) (line : Value) :
    Good Value (Library.callMatching name rule line) := by
  refine means.sequential.andThen (means.record _) fun _ => ?_
  cases rule with
  | constant result => exact means.make result
  | failing thrown => exact means.sequential.throw _
  | _ => exact means.sequential.pure _

theorem enter (means : MeansAre Good) (name : String) (failing : Option Thrown)
    (byEngine : Bool) : Good Unit (Library.enter name failing byEngine) := by
  refine means.sequential.andThen (means.record _) fun _ => ?_
  cases failing with
  | none => exact means.sequential.pure _
  | some thrown => exact means.sequential.throw _

theorem generate (means : MeansAre Good) (name : String) (items : List Recipe)
    (failing : Option Thrown) (byEngine : Bool) :
    Good Value (Library.generate name items failing byEngine) := by
  refine means.sequential.andThen (means.enter name failing byEngine) fun _ => ?_
  split
  · exact means.make _
  · exact means.sequential.pure _

theorem callGenerating (means : MeansAre Good) (name : String) (items : List Recipe)
    (giving : Giving) (failing : Option Thrown) (byEngine : Bool) :
    Good Value (Library.callGenerating name items giving failing byEngine) := by
  cases giving with
  | returned => exact means.generate name items failing byEngine
  | awaited => exact means.sequential.map (means.addPromise _) _
  | yielded => exact means.addStream _ _
  | yieldedAsync => exact means.addStream _ _

theorem functionOf (means : MeansAre Good) (reference : Callable) :
    Good Function (Library.functionOf reference) :=
  means.sequential.map means.read _

theorem makeNext (means : MeansAre Good) (id : Nat) (items : List Recipe) :
    Good (Option Value) (Library.makeNext id items) := by
  cases items with
  | nil => exact means.sequential.pure _
  | cons item rest =>
      exact means.sequential.andThen (means.setStream _ _) fun _ =>
        means.sequential.andThen (means.make item) fun _ =>
          means.sequential.map (means.setStream _ _) _

/-- What the host does to match lines and to make registrations. -/
theorem queries (means : MeansAre Good) : (hostWith run).QueriesAre Good where
  callMatcher reference line := by
    refine means.sequential.andThen (means.functionOf reference) fun function => ?_
    split
    · exact means.sequential.map (means.callMatching _ _ _) _
    · exact means.sequential.map (means.addPromise _) _
    · exact means.sequential.throw _
    · exact means.sequential.map (means.callGenerating _ _ _ _ _) _
  callGenerator reference := by
    refine means.sequential.andThen (means.functionOf reference) fun function => ?_
    split
    · exact means.callMatching _ _ _
    · exact means.sequential.map (means.addPromise _) _
    · exact means.sequential.throw _
    · exact means.callGenerating _ _ _ _ _
  await id := by
    refine means.sequential.andThen means.read fun memory => ?_
    refine means.sequential.andThen (means.change _) fun _ => ?_
    split
    · exact means.sequential.pure _
    · exact means.callMatching _ _ _
    · exact means.generate _ _ _ _
    · exact means.sequential.throw _
  next id := by
    refine means.sequential.andThen means.read fun memory => ?_
    split
    · exact means.sequential.pure _
    · exact means.sequential.map (means.setStream _ _) _
    · exact means.sequential.andThen (means.setStream _ _) fun _ =>
        means.sequential.andThen (means.rethrow _ (means.enter _ _ _)) fun _ => means.makeNext _ _
    · exact means.makeNext _ _

end MeansAre

/-- Whether the means by which declared handlers work have a property, where `run` runs a script on
the state at hand. -/
structure HandlersAre (Good : (α : Type) → Query Memory α → Prop)
    (Fine : (α : Type) → Procedure Memory α → Prop) (run : Value → Procedure Memory Unit) :
    Prop where
  sequential : Sequential Fine
  lift : ∀ {α : Type} {query : Query Memory α}, Good α query → Fine α (Query.lift query)
  attempt : ∀ {α : Type} {procedure : Procedure Memory α}, Fine α procedure →
    Fine (Except Failure α) (Procedure.attempt procedure)
  state : Fine State Procedure.state
  modifyState : ∀ change, Fine Unit (Procedure.modifyState change)
  register : ∀ registration, Fine Unit
    (Query.lift (Query.modifyEngine fun engine => engine.register registration))
  run : ∀ script, Fine Unit (run script)

namespace HandlersAre

mutual

theorem value (means : MeansAre Good) (handlers : HandlersAre Good Fine run)
    (arguments : List Value) (expression : Expr) : Fine Value (expression.value arguments) := by
  cases expression with
  | recipe source => exact handlers.lift (means.make source)
  | argument index =>
      unfold Expr.value
      simp only []
      split
      · exact handlers.sequential.pure _
      · exact handlers.sequential.throw _
  | arguments => exact handlers.sequential.pure _
  | entry name => exact handlers.sequential.map handlers.state _
  | joined parts => exact handlers.sequential.map (shownParts means handlers arguments parts) _

theorem shownParts (means : MeansAre Good) (handlers : HandlersAre Good Fine run)
    (arguments : List Value) (parts : List Expr) :
    Fine (List String) (Expr.value.shownParts arguments parts) := by
  cases parts with
  | nil => exact handlers.sequential.pure _
  | cons part rest =>
      exact handlers.sequential.andThen (value means handlers arguments part) fun _ =>
        handlers.sequential.map (shownParts means handlers arguments rest) _

end

theorem runApart (handlers : HandlersAre Good Fine run) (script : Value) (state : State) :
    Fine Unit (Library.runApart (run script) state) := by
  refine handlers.sequential.andThen handlers.state fun _ =>
    handlers.sequential.andThen (handlers.modifyState _) fun _ =>
      handlers.sequential.andThen (handlers.attempt (handlers.run script)) fun result =>
        handlers.sequential.andThen (handlers.modifyState _) fun _ => ?_
  cases result with
  | ok value => exact handlers.sequential.pure value
  | error failure => exact handlers.sequential.throw failure

theorem perform (means : MeansAre Good) (handlers : HandlersAre Good Fine run)
    (arguments : List Value) (effect : Effect) : Fine Unit (effect.perform run arguments) := by
  have value := handlers.value means arguments
  cases effect with
  | set name source =>
      exact handlers.sequential.andThen (value source) fun _ => handlers.modifyState _
  | append name source =>
      refine handlers.sequential.andThen (value source) fun _ =>
        handlers.sequential.andThen handlers.state fun _ => ?_
      split
      · exact handlers.modifyState _
      · exact handlers.sequential.throw _
  | increment name =>
      refine handlers.sequential.andThen handlers.state fun _ => ?_
      split
      · exact handlers.modifyState _
      · exact handlers.sequential.throw _
  | erase name => exact handlers.modifyState _
  | print source =>
      exact handlers.sequential.andThen (value source) fun _ => handlers.lift (means.record _)
  | dereference name source =>
      refine handlers.sequential.andThen (value source) fun _ =>
        handlers.sequential.andThen handlers.state fun _ => ?_
      split
      · exact handlers.modifyState _
      · exact handlers.sequential.throw _
  | fail thrown => exact handlers.sequential.throw _
  | failIf name thrown =>
      refine handlers.sequential.andThen handlers.state fun _ => ?_
      split
      · exact handlers.sequential.throw _
      · exact handlers.sequential.pure _
  | register registration =>
      exact handlers.sequential.andThen (handlers.lift (means.make registration)) fun _ =>
        handlers.register _
  | run script =>
      exact handlers.sequential.andThen (handlers.lift (means.make script)) fun _ => handlers.run _
  | runOn script state =>
      refine handlers.sequential.andThen (handlers.lift (means.make script)) fun _ =>
        handlers.sequential.andThen (handlers.lift (means.make state)) fun _ => ?_
      split
      · exact handlers.runApart _ _
      · split
        · exact handlers.runApart _ _
        · exact handlers.sequential.throw _
      · exact handlers.sequential.throw _

theorem callHandling (means : MeansAre Good) (handlers : HandlersAre Good Fine run)
    (name : String) (effects : List Effect) (result : Expr) (arguments : List Value) :
    Fine Value (Library.callHandling run name effects result arguments) := by
  have performed : Fine Unit (effects.forM fun effect => effect.perform run arguments) := by
    induction effects with
    | nil => exact handlers.sequential.pure _
    | cons effect rest ih =>
        exact handlers.sequential.andThen (handlers.perform means arguments effect) fun _ => ih
  exact handlers.sequential.andThen handlers.state fun _ =>
    handlers.sequential.andThen (handlers.lift (means.record _)) fun _ =>
      handlers.sequential.andThen performed fun _ => handlers.value means arguments result

theorem callHandler (means : MeansAre Good) (handlers : HandlersAre Good Fine run)
    (reference : Callable) (arguments : List Value) :
    Fine Answer ((hostWith run).callHandler reference arguments) := by
  refine handlers.sequential.andThen (handlers.lift (means.functionOf reference))
    fun function => ?_
  split
  · exact handlers.sequential.map (handlers.callHandling means _ _ _ _) _
  · exact handlers.sequential.map (handlers.callHandling means _ _ _ _) _
  · exact handlers.sequential.throw _
  · exact handlers.sequential.throw _

end HandlersAre

/-- The means of declared functions do not depend on what has been noted. -/
theorem meansAre_respects : MeansAre (Respects World.Alike) where
  sequential := sequential_respects _
  read _ _ alike := ⟨congrArg Except.ok alike.memory, alike⟩
  change update _ _ alike := ⟨rfl, alike.engine, congrArg update alike.memory⟩
  options _ _ alike := ⟨congrArg (Except.ok ∘ Engine.options) alike.engine, alike⟩
  rethrow := by
    intro query renamed respects start other alike
    obtain ⟨same, after⟩ := respects start other alike
    rw [run_rethrow, run_rethrow, same]
    exact ⟨rfl, after⟩

theorem ignoresNotices_hostWith (runs : ∀ script, Respects Session.Alike Unit (run script)) :
    (hostWith run).IgnoresNotices := by
  have handlers : HandlersAre (Respects World.Alike) (Respects Session.Alike) run :=
    { sequential := sequential_respects _
      lift := Respects.lift
      attempt := Respects.attempt
      state := fun _ _ alike => ⟨congrArg Except.ok alike.state, alike⟩
      modifyState := fun change _ _ alike => ⟨rfl, congrArg change alike.state, alike.world⟩
      register := fun _ => Respects.lift (respects_modifyEngine _)
      run := runs }
  exact
    { toQueriesAre := meansAre_respects.queries
      sleep := fun _ => meansAre_respects.record _
      print := fun _ => meansAre_respects.record _
      readKey := meansAre_respects.readKey
      callHandler := handlers.callHandler meansAre_respects }

/-- Declared libraries ignore notices. -/
theorem ignoresNotices_host (fuel levels : Nat) : (host fuel levels).IgnoresNotices := by
  induction levels with
  | zero => exact ignoresNotices_hostWith fun _ => (sequential_respects _).throw _
  | succ levels ih => exact ignoresNotices_hostWith fun script => ih.script fuel script

section Related

variable {Related : World Memory → World Memory → Prop} [Std.Refl Related]
  [IsTrans (World Memory) Related]

theorem meansAre_leads
    (registering : ∀ start last : World Memory, start.Registers last → Related start last) :
    MeansAre (Leads Related) where
  sequential := sequential_leads Related
  read start := Std.Refl.refl start
  change update start := registering _ _ (World.registers_of_engine_eq rfl)
  options start := Std.Refl.refl start
  rethrow := by
    intro query renamed leads start
    rw [run_rethrow]
    exact leads start

theorem keepsTo_hostWith
    (registering : ∀ start last : World Memory, start.Registers last → Related start last)
    (runs : ∀ script, Leads (InvImage Related Session.world) Unit (run script)) :
    (hostWith run).KeepsTo Related := by
  have means := meansAre_leads registering
  have handlers : HandlersAre (Leads Related) (Leads (InvImage Related Session.world)) run :=
    { sequential := sequential_leads _
      lift := Leads.lift
      attempt := id
      state := leads_state
      modifyState := leads_modifyState
      register := fun _ start => registering _ _ ⟨_, rfl⟩
      run := runs }
  exact
    { toQueriesAre := means.queries
      sleep := fun _ => means.record _
      print := fun _ => means.record _
      readKey := means.readKey
      callHandler := handlers.callHandler means }

/-- Declared libraries lead to worlds that are related to those before them if registering and
preparing the engine do, also where handlers run scripts. -/
theorem keepsTo_host {fuel : Nat}
    (registering : ∀ start last : World Memory, start.Registers last → Related start last)
    (preparing : ∀ levels, (host fuel levels).KeepsTo Related → ∀ less,
      Leads Related (List Action) (Engine.prepare (host fuel levels) less)) (levels : Nat) :
    (host fuel levels).KeepsTo Related := by
  induction levels with
  | zero => exact keepsTo_hostWith registering fun _ start => Std.Refl.refl start.world
  | succ levels ih =>
      exact keepsTo_hostWith registering fun script =>
        Run.script_leads ih (fun start last registers _ => registering start last registers)
          (preparing levels ih) fuel script

end Related

/-- Declared libraries keep what the engine begins with. -/
theorem keepsFirst_host (given : List Action) (fuel levels : Nat) :
    (host fuel levels).KeepsTo (World.KeepsFirst given) :=
  keepsTo_host (fun _ _ registers => registers.keepsFirst)
    (fun _ keeps less => Engine.prepare_keepsFirst keeps less) levels

section Alike

variable {Related : World Memory → World Memory → Prop}

theorem worksAlike_hostWith (means : MeansAre (Respects Related))
    (register : ∀ registration, Respects Related Unit
      (Query.modifyEngine fun engine => engine.register registration))
    (runs : ∀ script, Respects (Session.Over Related) Unit (run script)) :
    (hostWith run).WorksAlike Related := by
  have handlers : HandlersAre (Respects Related) (Respects (Session.Over Related)) run :=
    { sequential := sequential_respects _
      lift := Respects.liftOver
      attempt := Respects.attemptOver
      state := respectsOver_state
      modifyState := respectsOver_modifyState
      register := fun registration => (register registration).liftOver
      run := runs }
  exact
    { toQueriesAre := means.queries
      sleep := fun _ => means.record _
      print := fun _ => means.record _
      readKey := means.readKey
      callHandler := handlers.callHandler means }

end Alike

theorem host_eq_hostWith (fuel levels : Nat) : ∃ run, host fuel levels = hostWith run := by
  cases levels <;> exact ⟨_, rfl⟩

theorem host_sameQueries (fuel levels others : Nat) :
    (host fuel levels).SameQueries (host fuel others) := by
  obtain ⟨run, same⟩ := host_eq_hostWith fuel levels
  obtain ⟨run', same'⟩ := host_eq_hostWith fuel others
  rw [same, same']
  exact ⟨rfl, rfl, rfl, rfl⟩

section Swapped

variable {first second : Action}

theorem meansAre_swapped : MeansAre (Respects (World.Swapped first second)) where
  sequential := sequential_respects _
  read _ _ swapped := ⟨congrArg Except.ok swapped.memory, swapped⟩
  change update _ _ swapped := ⟨rfl, swapped.engine, congrArg update swapped.memory⟩
  options _ _ swapped := ⟨congrArg Except.ok swapped.engine.options, swapped⟩
  rethrow := by
    intro query renamed respects start other swapped
    obtain ⟨same, after⟩ := respects start other swapped
    rw [run_rethrow, run_rethrow, same]
    exact ⟨rfl, after⟩

/-- Declared libraries do the same, also where handlers run scripts, in engines in which two actions
that are apart have changed places. -/
theorem worksAlike_swapped_host (fuel levels : Nat)
    (apart : Run.Apart (host fuel levels) first second) :
    (host fuel levels).WorksAlike (World.Swapped first second) := by
  have register (registration : Value) : Respects (World.Swapped first second) Unit
      (Query.modifyEngine fun engine => engine.register registration : Query Memory Unit) :=
    fun _ _ swapped => ⟨rfl, swapped.engine.register registration, swapped.memory⟩
  induction levels with
  | zero =>
      exact worksAlike_hostWith meansAre_swapped register fun _ =>
        (sequential_respects _).throw _
  | succ levels ih =>
      have lower := apart.congr (host_sameQueries fuel (levels + 1) levels)
      exact worksAlike_hostWith meansAre_swapped register fun script =>
        Run.script_swapped (ih lower) lower fuel script

end Swapped

/-- Declared libraries treat the engine as they may. -/
theorem usesEngine_host (fuel levels : Nat) : (host fuel levels).UsesEngine := by
  have only : (host fuel levels).OnlyRegisters := by
    obtain ⟨run, same⟩ := host_eq_hostWith fuel levels
    have means : MeansAre (Leads World.Registers) := meansAre_leads fun _ _ registers => registers
    rw [same]
    exact
      { toQueriesAre := means.queries
        sleep := fun _ => means.record _
        print := fun _ => means.record _
        readKey := means.readKey }
  have keeps : (host fuel levels).KeepsTo (World.Progresses (host fuel levels)) := by
    refine keepsTo_host (fun _ _ registers => registers.progresses _) ?_ levels
    intro others _ less start
    have progresses : start.Progresses (host fuel others)
        ((Engine.prepare (host fuel others) less).run start).2 := by
      rw [Engine.prepare_run]
      exact ⟨_, .of_preparation _ less start⟩
    exact progresses.congr (host_sameQueries fuel others levels)
  exact { toOnlyRegisters := only, callHandler := keeps.callHandler }

end Library

end LineScript
