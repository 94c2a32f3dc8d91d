import LineScript.Library.Host
import LineScript.Proofs.Run.Uses
import LineScript.Proofs.Vocabulary.Renewal

/-!
# Preparing an engine again

When a registration fails it is tried again the next time the engine is prepared, and what the
failed attempt has gathered is dropped. Nothing is lost by this if the registration is renewable or
doomed: however the engine is used in between, preparing it again fails, or brings the actions that
have been gathered (`LineScript.Run.prepare_retains`). A stream does not begin anew, and loses what
has been drawn from it.
-/

namespace LineScript

variable {Memory : Type} {host : Host Memory} {Kept : Memory → Prop}

namespace World.Registers

variable {start last : World Memory} {registration : Value}

/-- Registering leaves what has been registered where it is. -/
theorem getElem? (registers : start.Registers last) {place : Nat}
    (registered : start.engine.registrations[place]? = some registration) :
    last.engine.registrations[place]? = some registration := by
  obtain ⟨added, engine⟩ := registers
  have bound := (List.getElem?_eq_some_iff.mp registered).1
  rw [engine]
  exact (List.getElem?_append_left bound).trans registered

/-- Registering leaves it the turn of the same registration. -/
theorem getElem?_resolved (registers : start.Registers last)
    (waiting : start.engine.registrations[start.engine.resolved]? = some registration) :
    last.engine.registrations[last.engine.resolved]? = some registration := by
  have held := registers.getElem? waiting
  obtain ⟨added, engine⟩ := registers
  rw [engine] at held ⊢
  exact held

end World.Registers

/-- Whether the engine of a world has become that of another one by registering, and the memory has
stayed of some kind. -/
structure World.RegistersKeeping (Kept : Memory → Prop) (start last : World Memory) : Prop where
  registers : start.Registers last
  keeps : start.Keeps Kept last

instance (Kept : Memory → Prop) : Std.Refl (World.RegistersKeeping Kept) :=
  ⟨fun world => ⟨Std.Refl.refl world, id⟩⟩

instance (Kept : Memory → Prop) : IsTrans (World Memory) (World.RegistersKeeping Kept) where
  trans _ _ _ first second :=
    ⟨IsTrans.trans _ _ _ first.registers second.registers, second.keeps ∘ first.keeps⟩

/-- Whether what leads from one world to another registers and prepares the engine, and keeps the
memory of some kind. -/
inductive World.Proceeds (host : Host Memory) (Kept : Memory → Prop) :
    World Memory → World Memory → Prop where
  | registered {start last : World Memory} :
      start.RegistersKeeping Kept last → Proceeds host Kept start last
  | prepared (fuel : Nat) (start : World Memory) :
      Proceeds host Kept start ((Engine.prepare host fuel).run start).2
  | behind {start next last : World Memory} :
      Proceeds host Kept start next → Proceeds host Kept next last → Proceeds host Kept start last

instance : Std.Refl (World.Proceeds host Kept) :=
  ⟨fun world => .registered (Std.Refl.refl world)⟩

instance : IsTrans (World Memory) (World.Proceeds host Kept) where
  trans _ _ _ := .behind

/-- Whether a host keeps the memory of some kind, and treats the engine as it may: handlers
register, prepare the engine and run scripts, and all else that the host does only registers. -/
structure Host.UsesEngineKeeping (host : Host Memory) (Kept : Memory → Prop) : Prop
    extends host.QueriesAre (Leads (World.RegistersKeeping Kept)) where
  sleep : ∀ seconds, Leads (World.RegistersKeeping Kept) Unit (host.sleep seconds)
  print : ∀ line, Leads (World.RegistersKeeping Kept) Unit (host.print line)
  readKey : Leads (World.RegistersKeeping Kept) (Option Char) host.readKey
  callHandler : ∀ function arguments,
    Leads (InvImage (World.Proceeds host Kept) Session.world) Answer
      (host.callHandler function arguments)

namespace Host.UsesEngineKeeping

theorem keeps (uses : host.UsesEngineKeeping Kept) :
    host.QueriesAre (Leads (World.Keeps Kept)) where
  callMatcher function line start := (uses.callMatcher function line start).keeps
  callGenerator function start := (uses.callGenerator function start).keeps
  await id start := (uses.await id start).keeps
  next id start := (uses.next id start).keeps

theorem resolve (uses : host.UsesEngineKeeping Kept) (fuel : Nat) (registration : Value) :
    Leads (World.RegistersKeeping Kept) (List Action)
      (Registration.resolve host fuel registration) :=
  (Registration.resolve_is (sequential_leads _) uses.toQueriesAre
    (fun notice start => ⟨registers_note notice start, id⟩) fuel).one registration

/-- However an engine is used, this registers and prepares it, and keeps the memory of some kind. -/
theorem after_proceeds (uses : host.UsesEngineKeeping Kept) (row : List Use)
    (start : World Memory) : start.Proceeds host Kept (start.after host row) := by
  have registering (start last : World Memory) (registers : start.Registers last)
      (memory : last.memory = start.memory) : start.Proceeds host Kept last :=
    .registered ⟨registers, fun kept => memory ▸ kept⟩
  have keeps : host.KeepsTo (World.Proceeds host Kept) :=
    { callMatcher := fun function line start => .registered (uses.callMatcher function line start)
      callGenerator := fun function start => .registered (uses.callGenerator function start)
      await := fun id start => .registered (uses.await id start)
      next := fun id start => .registered (uses.next id start)
      sleep := fun seconds start => .registered (uses.sleep seconds start)
      print := fun line start => .registered (uses.print line start)
      readKey := fun start => .registered (uses.readKey start)
      callHandler := uses.callHandler }
  exact Run.after_leads keeps registering (fun fuel start => .prepared fuel start) row start

end Host.UsesEngineKeeping

namespace Engine

/-- Whether a preparation has ended with an attempt that has failed: it leaves what this attempt
leaves, and the attempt is for the registration whose turn it was. -/
structure EndsWith (Kept : Memory → Prop) (preparation : Preparation Memory)
    (tried : Attempt Memory) : Prop where
  last : preparation.world = tried.last
  waiting : tried.start.engine.registrations[tried.start.engine.resolved]? =
    some tried.registration
  kept : Kept tried.start.memory

theorem Prepares.endsWith {fuel : Nat} {world : World Memory} {preparation : Preparation Memory}
    (prepares : Prepares host fuel world preparation)
    (keeps : host.QueriesAre (Leads (World.Keeps Kept))) (kept : Kept world.memory)
    {front : List (Attempt Memory)} {tried : Attempt Memory}
    (attempts : preparation.attempts = front ++ [tried]) {failure : Failure}
    (failed : tried.result = .error failure) : EndsWith Kept preparation tried := by
  have absent (others : List (Attempt Memory)) : others ++ [tried] ≠ [] :=
    List.append_ne_nil_of_right_ne_nil others (List.cons_ne_nil tried [])
  induction prepares generalizing front with
  | cutOff world => exact absurd attempts.symm (absent front)
  | finished fuel all => exact absurd attempts.symm (absent front)
  | failed waiting result =>
      cases front with
      | nil =>
          obtain ⟨rfl, -⟩ := List.cons.inj attempts
          exact ⟨rfl, waiting, kept⟩
      | cons first front => exact absurd (List.cons.inj attempts).2.symm (absent front)
  | @kept fuel world registration actions rest waiting result _ ih =>
      cases front with
      | nil =>
          obtain ⟨rfl, -⟩ := List.cons.inj attempts
          rw [result] at failed
          cases failed
      | cons first front =>
          have after := Registration.resolve_keeps keeps fuel registration world kept
          obtain ⟨last, own, held⟩ := ih after (List.cons.inj attempts).2
          exact ⟨last, own, held⟩

/-- Whether the engine waits for a registration, and has the actions of those before it, or has
resolved it, and then has some actions of its own behind these. -/
structure Retains (Kept : Memory → Prop) (place : Nat) (registration : Value)
    (held own : List Action) (world : World Memory) : Prop where
  memory : Kept world.memory
  registered : world.engine.registrations[place]? = some registration
  retained : world.engine.resolved = place ∧ world.engine.actions = held ∨
    place < world.engine.resolved ∧ held ++ own <+: world.engine.actions

namespace Retains

variable {place : Nat} {registration : Value} {held own : List Action} {start last : World Memory}

theorem of_registers (retains : Retains Kept place registration held own start)
    (registers : start.RegistersKeeping Kept last) :
    Retains Kept place registration held own last := by
  refine ⟨registers.keeps retains.memory, registers.registers.getElem? retains.registered, ?_⟩
  obtain ⟨added, engine⟩ := registers.registers
  rw [engine]
  exact retains.retained

/-- Resolving the next registration retains what counts. -/
theorem afterKeeping (retains : Retains Kept place registration held own start) {next : Value}
    {actions : List Action}
    (waiting : start.engine.registrations[start.engine.resolved]? = some next)
    (spares : next = registration → own <+: actions) :
    Retains Kept place registration held own (afterKeeping start actions) := by
  refine ⟨retains.memory, retains.registered, Or.inr ?_⟩
  rcases retains.retained with ⟨turn, same⟩ | ⟨past, begins⟩
  · have own : next = registration := by
      rw [turn, retains.registered] at waiting
      exact (Option.some.inj waiting).symm
    change place < start.engine.resolved + 1 ∧ held ++ _ <+: start.engine.actions ++ actions
    rw [turn, same]
    exact ⟨Nat.lt_succ_self place, (List.prefix_append_right_inj held).mpr (spares own)⟩
  · exact ⟨Nat.lt_succ_of_lt past, begins.trans (List.prefix_append _ _)⟩

/-- Preparing the engine retains what counts, and if it succeeds the actions are brought. -/
theorem prepare (uses : host.UsesEngineKeeping Kept)
    (spares : ∀ (world : World Memory), Kept world.memory → ∀ fuel actions last,
      (Registration.resolve host fuel registration).run world = (.ok actions, last) →
      own <+: actions)
    (fuel : Nat) (retains : Retains Kept place registration held own start) :
    Retains Kept place registration held own ((Engine.prepare host fuel).run start).2 ∧
      ∀ actions, ((Engine.prepare host fuel).run start).1 = .ok actions →
        held ++ own <+: actions := by
  induction fuel generalizing start with
  | zero => exact ⟨retains, by rintro _ ⟨⟩⟩
  | succ fuel ih =>
      cases waiting : start.engine.registrations[start.engine.resolved]? with
      | none =>
          rw [prepare_run_of_none waiting]
          refine ⟨retains, ?_⟩
          rintro actions ⟨⟩
          rcases retains.retained with ⟨turn, -⟩ | ⟨-, begins⟩
          · rw [turn, retains.registered] at waiting
            cases waiting
          · exact begins
      | some next =>
          have registers := uses.resolve fuel next start
          rcases resolved : (Registration.resolve host fuel next).run start with
            ⟨failure | actions, between⟩
          all_goals rw [resolved] at registers
          · rw [prepare_run_of_error waiting resolved]
            exact ⟨retains.of_registers registers, by simp⟩
          · rw [prepare_run_of_ok waiting resolved]
            have next' := registers.registers.getElem?_resolved waiting
            refine ih ((retains.of_registers registers).afterKeeping next' ?_)
            rintro rfl
            exact spares start retains.memory fuel actions between resolved

theorem proceeds (uses : host.UsesEngineKeeping Kept)
    (spares : ∀ (world : World Memory), Kept world.memory → ∀ fuel actions last,
      (Registration.resolve host fuel registration).run world = (.ok actions, last) →
      own <+: actions)
    (proceeds : start.Proceeds host Kept last)
    (retains : Retains Kept place registration held own start) :
    Retains Kept place registration held own last := by
  induction proceeds with
  | registered registers => exact retains.of_registers registers
  | prepared fuel start => exact (retains.prepare uses spares fuel).1
  | behind _ _ first second => exact second (first retains)

end Retains

end Engine

namespace Run

/-- **Preparing again after a failure.** Say that preparing an engine fails with the attempt to
resolve a registration that is renewable or doomed. However the engine is used then, preparing it
again fails, or brings first of all the actions of the registrations before, and behind them those
that the failed attempt had gathered. What an attempt gathers is what it comes to, if it
succeeds. -/
theorem prepare_retains (uses : host.UsesEngineKeeping Kept) {start : World Memory}
    (kept : Kept start.memory) {fuel : Nat} {front : List (Engine.Attempt Memory)}
    {tried : Engine.Attempt Memory}
    (attempts : (Engine.preparation host fuel start).attempts = front ++ [tried])
    {failure : Failure} (failed : tried.result = .error failure) {less : Nat}
    (made : tried = Engine.attempt host less tried.place tried.registration tried.start)
    (sound : (∃ row, Registration.Renewable host Kept tried.registration row) ∨
      Registration.Doomed host Kept tried.registration) (row : List Use) (again : Nat)
    {actions : List Action}
    (prepared : ((Engine.prepare host again).run
      ((Engine.preparation host fuel start).world.after host row)).1 = .ok actions) :
    tried.start.engine.actions ++
        Registration.gathered host less tried.registration tried.start <+: actions ∧
      ∀ world whole after,
        (Registration.resolve host less tried.registration).run world = (.ok whole, after) →
          Registration.gathered host less tried.registration world = whole := by
  obtain ⟨last, waiting, kept⟩ :=
    (Engine.prepares_preparation host fuel start).endsWith uses.keeps kept attempts failed
  have spares (world : World Memory) (held : Kept world.memory) (fuel : Nat)
      (actions : List Action) (after : World Memory)
      (resolved : (Registration.resolve host fuel tried.registration).run world =
        (.ok actions, after)) :
      Registration.gathered host less tried.registration tried.start <+: actions := by
    rcases sound with ⟨row, renewable⟩ | doomed
    · rw [(renewable.offers uses.keeps held).comes fuel actions after resolved]
      exact (renewable.offers uses.keeps kept).gathers less
    · have refused := doomed.isOk_eq_false uses.keeps held fuel
      rw [resolved] at refused
      cases refused
  have began : Engine.Retains Kept tried.start.engine.resolved tried.registration
      tried.start.engine.actions
      (Registration.gathered host less tried.registration tried.start) tried.start :=
    ⟨kept, waiting, Or.inl ⟨rfl, rfl⟩⟩
  have dropped := began.of_registers (uses.resolve less tried.registration tried.start)
  have left : (Engine.preparation host fuel start).world =
      ((Registration.resolve host less tried.registration).run tried.start).2 :=
    last.trans (congrArg Engine.Attempt.last made)
  rw [← left] at dropped
  have used := dropped.proceeds uses spares (uses.after_proceeds row _)
  exact ⟨(used.prepare uses spares again).2 actions prepared,
    (Registration.gathersAll host less).one tried.registration⟩

/-- An action for a line that is a name. -/
def named (name : String) : Action :=
  .ofName name (.call ⟨0, name⟩) false

/-- The memory of a host that makes streams: how often it has been asked to, and the streams that
have been drawn from. -/
structure Making where
  asked : Nat
  drawn : List Nat

/-- Whether only streams that have been made have been drawn from. -/
def Making.IsSound (making : Making) : Prop :=
  ∀ id ∈ making.drawn, id < making.asked

/-- The world after one more stream has been asked for. -/
def asking (world : World Making) : World Making :=
  { world with memory := ⟨world.memory.asked + 1, world.memory.drawn⟩ }

/-- The world after a stream has been drawn from. -/
def drawing (id : Nat) (world : World Making) : World Making :=
  { world with memory := ⟨world.memory.asked, id :: world.memory.drawn⟩ }

/-- A host with a generator that fails the first time, and then answers with new streams of an
action. -/
def faltering : Host Making where
  callMatcher _ _ := return .ready .null
  callHandler _ _ := return .ready .null
  callGenerator _ := fun world =>
    (if world.memory.asked = 0 then .error (.fault .missingArgument)
      else .ok (.stream world.memory.asked false), asking world)
  await _ := return .null
  next id := fun world =>
    if id < world.memory.asked ∧ id ∉ world.memory.drawn then
      (.ok (some (.action (named "late"))), drawing id world)
    else (.ok none, world)
  sleep _ := return ()
  print _ := return ()
  readKey := return none

theorem usesEngineKeeping_faltering : faltering.UsesEngineKeeping Making.IsSound where
  callMatcher _ _ start := Std.Refl.refl start
  callGenerator _ _ :=
    ⟨World.registers_of_engine_eq rfl, fun sound id member => Nat.lt_succ_of_lt (sound id member)⟩
  await _ start := Std.Refl.refl start
  next id start := by
    change World.RegistersKeeping _ start (if _ then _ else _ : _ × World Making).2
    split
    next fresh =>
      exact ⟨World.registers_of_engine_eq rfl,
        fun sound => List.forall_mem_cons.mpr ⟨fresh.1, sound⟩⟩
    next => exact Std.Refl.refl start
  sleep _ start := Std.Refl.refl start
  print _ start := Std.Refl.refl start
  readKey start := Std.Refl.refl start
  callHandler _ _ start := Std.Refl.refl start.world

/-- A new stream unfolds to its action. -/
theorem unfolds_faltering {world : World Making} (sound : world.memory.IsSound) :
    Registration.Unfolds faltering (asking world) (.stream world.memory.asked false)
      (.stream false [.leaf (.action (named "late"))])
      (drawing world.memory.asked (asking world)) := by
  have fresh : world.memory.asked ∉ world.memory.drawn :=
    fun member => Nat.lt_irrefl _ (sound _ member)
  have drew : (faltering.next world.memory.asked).run (asking world) =
      (.ok (some (.action (named "late"))), drawing world.memory.asked (asking world)) :=
    if_pos ⟨Nat.lt_succ_self _, fresh⟩
  have ended : (faltering.next world.memory.asked).run
      (drawing world.memory.asked (asking world)) =
        (.ok none, drawing world.memory.asked (asking world)) :=
    if_neg fun both => both.2 List.mem_cons_self
  exact .stream (.draw drew (.leaf _ rfl) (.finish ended))

/-- The world of an engine with a registration. -/
def registered (registration : Value) (memory : Memory) : World Memory :=
  ⟨{ options := ⟨.bool false, []⟩, registrations := [registration] }, [], memory⟩

/-- A list of an action and a generator. -/
def halting : Value :=
  .list [.action (named "early"), .callable ⟨0, "make"⟩]

/-- The action that an item of this list stands for. -/
def halted (item : Value) : List Action :=
  if item.isLeaf then [named "early"] else [named "late"]

theorem renewable_halting :
    Registration.Renewable faltering Making.IsSound halting [named "early", named "late"] := by
  have early (actions : List Action)
      (gives : Registration.Gives (.action (named "early")) actions) :
      actions = [named "early"] :=
    gives.unique (.action _)
  have late : Registration.Renewable faltering Making.IsSound (.callable ⟨0, "make"⟩)
      [named "late"] := by
    refine Registration.renewable_of_unfolds ?_ (.given (.action (named "late")) .nil)
    intro start value last sound answered
    obtain ⟨answer, rfl⟩ := Prod.mk.inj answered
    split at answer
    · cases answer
    · cases answer
      exact ⟨_, _, unfolds_faltering sound, rfl⟩
  have items : ∀ item ∈ [.action (named "early"), .callable ⟨0, "make"⟩],
      Registration.Renewable faltering Making.IsSound item (halted item) := by
    simp only [List.forall_mem_cons]
    exact ⟨.leaf rfl early, late, List.forall_mem_nil _⟩
  exact .list items

/-- The action before a generator that fails once comes again, after a run that is refused, and the
stream that the generator answers with then brings its action. -/
theorem prepare_retains_faltering :
    ∃ tried : Engine.Attempt Making,
      (Engine.preparation faltering 9 (registered halting ⟨0, []⟩)).attempts = [] ++ [tried] ∧
      tried.result = .error (.fault .missingArgument) ∧
      Registration.gathered faltering 8 tried.registration tried.start = [named "early"] ∧
      ((Engine.prepare faltering 9).run ((Engine.preparation faltering 9
        (registered halting ⟨0, []⟩)).world.after faltering [.run 9 (.text "bogus") []])).1 =
          .ok [named "early", named "late"] ∧
      tried.start.engine.actions ++
        Registration.gathered faltering 8 tried.registration tried.start <+:
          [named "early", named "late"] := by
  have attempts : (Engine.preparation faltering 9 (registered halting ⟨0, []⟩)).attempts =
      [] ++ [Engine.attempt faltering 8 0 halting (registered halting ⟨0, []⟩)] := rfl
  have again : ((Engine.prepare faltering 9).run ((Engine.preparation faltering 9
      (registered halting ⟨0, []⟩)).world.after faltering [.run 9 (.text "bogus") []])).1 =
        .ok [named "early", named "late"] := rfl
  have sound : (registered halting (Making.mk 0 [])).memory.IsSound := List.forall_mem_nil _
  refine ⟨_, attempts, rfl, rfl, again, ?_⟩
  exact (prepare_retains usesEngineKeeping_faltering sound attempts rfl rfl
    (Or.inl ⟨_, renewable_halting⟩) _ 9 again).1

/-- The memory of a library with a stream of an action and a number. -/
def dwindling : Library.Memory :=
  { streams := #[.known [.action (named "early"), .int 42]] }

/-- A stream that has failed succeeds when the engine is prepared again, without the action that had
been gathered. -/
theorem prepare_stream_loses :
    ∃ tried : Engine.Attempt Library.Memory,
      (Engine.preparation (Library.host 9 1) 9
        (registered (.stream 0 false) dwindling)).attempts = [] ++ [tried] ∧
      tried.result = .error (.fault (.script (.invalidRegistration "int"))) ∧
      Registration.gathered (Library.host 9 1) 8 tried.registration tried.start =
        [named "early"] ∧
      ((Engine.prepare (Library.host 9 1) 9).run (Engine.preparation (Library.host 9 1) 9
        (registered (.stream 0 false) dwindling)).world).1 = .ok [] ∧
      ¬[named "early"].Sublist [] := by
  refine ⟨_, rfl, rfl, rfl, rfl, ?_⟩
  intro impossible
  cases impossible

end Run

end LineScript
