import LineScript.Proofs.Run.Parts

/-!
# Attempts to resolve registrations

Preparing an engine is a row of *attempts*, each to resolve the registration whose turn it is. A
record of them is made beside the definition that prepares, and agrees with it
(`LineScript.Engine.prepare_run`). As long as all that is called meanwhile only registers, what an
engine holds is *cached* from the attempts that have succeeded, whatever has failed in between
(`LineScript.Engine.History.cached`).
-/

namespace LineScript

variable {Memory : Type}

/-- Whether the engine of a world has become that of another one by registering. -/
def World.Registers (start last : World Memory) : Prop :=
  ∃ added, last.engine =
    { start.engine with registrations := start.engine.registrations ++ added }

theorem World.registers_of_engine_eq {start last : World Memory}
    (same : last.engine = start.engine) : start.Registers last :=
  ⟨[], by rw [List.append_nil]; exact same⟩

instance : Std.Refl (α := World Memory) World.Registers :=
  ⟨fun _ => World.registers_of_engine_eq rfl⟩

instance : IsTrans (World Memory) World.Registers where
  trans := by
    rintro start next last ⟨first, before⟩ ⟨second, after⟩
    refine ⟨first ++ second, ?_⟩
    rw [after, before, List.append_assoc]

theorem registers_note (notice : Notice) :
    Leads World.Registers Unit (Query.note notice : Query Memory Unit) :=
  fun _ => World.registers_of_engine_eq rfl

/-- Whether a host does nothing to the engine but register when it matches lines, makes
registrations, waits, or deals with the clock and the console. -/
structure Host.OnlyRegisters (host : Host Memory) : Prop
    extends host.QueriesAre (Leads World.Registers) where
  sleep : ∀ seconds, Leads World.Registers Unit (host.sleep seconds)
  print : ∀ line, Leads World.Registers Unit (host.print line)
  readKey : Leads World.Registers (Option Char) host.readKey

theorem Host.OnlyRegisters.resolve {host : Host Memory} (only : host.OnlyRegisters) (fuel : Nat)
    (registration : Value) :
    Leads World.Registers (List Action) (Registration.resolve host fuel registration) :=
  (Registration.resolve_is (sequential_leads World.Registers) only.toQueriesAre registers_note
    fuel).one registration

namespace Engine

/-- An attempt to resolve the registration at a place: the world in which it is made, what it comes
to, and the world that it leaves. -/
structure Attempt (Memory : Type) where
  place : Nat
  registration : Value
  start : World Memory
  result : Except Failure (List Action)
  last : World Memory

namespace Attempt

/-- Whether an attempt succeeds. -/
def succeeded (attempt : Attempt Memory) : Bool :=
  attempt.result.isOk

/-- The actions that an attempt has come to, if it succeeds. -/
def actions (attempt : Attempt Memory) : List Action :=
  attempt.result.toOption.getD []

end Attempt

/-- The attempt to resolve a registration. -/
def attempt (host : Host Memory) (fuel place : Nat) (registration : Value)
    (world : World Memory) : Attempt Memory where
  place := place
  registration := registration
  start := world
  result := ((Registration.resolve host fuel registration).run world).1
  last := ((Registration.resolve host fuel registration).run world).2

/-- The engine with the actions of one more registration. -/
def keeping (engine : Engine) (actions : List Action) : Engine :=
  { engine with actions := engine.actions ++ actions, resolved := engine.resolved + 1 }

/-- The world after the engine has kept the actions of one more registration. -/
def afterKeeping (world : World Memory) (actions : List Action) : World Memory :=
  World.noting { world with engine := world.engine.keeping actions }
    (.prepared (world.engine.actions ++ actions).length)

/-- What preparing an engine comes to. -/
structure Preparation (Memory : Type) where
  attempts : List (Attempt Memory)
  result : Except Failure (List Action)
  world : World Memory

/-- A preparation with an attempt made before it. -/
def Preparation.behind (preparation : Preparation Memory) (attempt : Attempt Memory) :
    Preparation Memory :=
  { preparation with attempts := attempt :: preparation.attempts }

/-- Prepare an engine, with a record of the attempts. -/
def preparation (host : Host Memory) : (fuel : Nat) → World Memory → Preparation Memory
  | 0, world => ⟨[], .error .outOfFuel, world⟩
  | fuel + 1, world =>
    match world.engine.registrations[world.engine.resolved]? with
    | none => ⟨[], .ok world.engine.actions, world⟩
    | some registration =>
      let attempt := attempt host fuel world.engine.resolved registration world
      match attempt.result with
      | .error failure => ⟨[attempt], .error failure, attempt.last⟩
      | .ok actions =>
        (preparation host fuel (afterKeeping attempt.last actions)).behind attempt

section Steps

variable {host : Host Memory} {fuel : Nat} {world last : World Memory} {registration : Value}

/-- With all registrations resolved nothing is left to prepare. -/
theorem prepare_run_of_none
    (all : world.engine.registrations[world.engine.resolved]? = none) :
    (prepare host (fuel + 1)).run world = (.ok world.engine.actions, world) := by
  rw [prepare, run_bind_of_ok (Query.run_engine world)]
  simp only [all]
  rfl

/-- A preparation fails when a registration cannot be resolved. -/
theorem prepare_run_of_error {failure : Failure}
    (waiting : world.engine.registrations[world.engine.resolved]? = some registration)
    (failed : (Registration.resolve host fuel registration).run world = (.error failure, last)) :
    (prepare host (fuel + 1)).run world = (.error failure, last) := by
  rw [prepare, run_bind_of_ok (Query.run_engine world)]
  simp only [waiting]
  exact run_bind_of_error failed

/-- A preparation goes on behind a registration that has been resolved. -/
theorem prepare_run_of_ok {actions : List Action}
    (waiting : world.engine.registrations[world.engine.resolved]? = some registration)
    (resolved : (Registration.resolve host fuel registration).run world = (.ok actions, last)) :
    (prepare host (fuel + 1)).run world = (prepare host fuel).run (afterKeeping last actions) := by
  rw [prepare, run_bind_of_ok (Query.run_engine world)]
  simp only [waiting]
  rw [run_bind_of_ok resolved]
  rfl

end Steps

/-- Preparing an engine comes to what its record says. -/
theorem prepare_run (host : Host Memory) (fuel : Nat) (world : World Memory) :
    (prepare host fuel).run world =
      ((preparation host fuel world).result, (preparation host fuel world).world) := by
  induction fuel generalizing world with
  | zero => rfl
  | succ fuel ih =>
      unfold preparation
      cases waiting : world.engine.registrations[world.engine.resolved]? with
      | none => exact prepare_run_of_none waiting
      | some registration =>
          simp only [attempt]
          rcases resolved : (Registration.resolve host fuel registration).run world with
            ⟨failure | actions, last⟩
          · exact prepare_run_of_error waiting resolved
          · rw [prepare_run_of_ok waiting resolved]
            exact ih _

/-- What has happened to an engine: the attempts that have been made between two worlds, in order.
In between anything else may happen, but it does nothing to the engine but register. -/
inductive History (host : Host Memory) :
    World Memory → List (Attempt Memory) → World Memory → Prop where
  | nil (world : World Memory) : History host world [] world
  | registered {start next last : World Memory} {attempts : List (Attempt Memory)} :
      start.Registers next → History host next attempts last → History host start attempts last
  | prepared (fuel : Nat) {start last : World Memory} {attempts : List (Attempt Memory)} :
      History host (preparation host fuel start).world attempts last →
      History host start ((preparation host fuel start).attempts ++ attempts) last

/-- Whether what an engine holds comes from some attempts, the first one first. The registrations
that it has resolved are those that an attempt has succeeded for, each one once and in order, and
its actions are what these attempts have come to. -/
structure Cached (engine : Engine) (attempts : List (Attempt Memory)) : Prop where
  resolved_le : engine.resolved ≤ engine.registrations.length
  registered : ∀ attempt ∈ attempts,
    engine.registrations[attempt.place]? = some attempt.registration
  places : (attempts.filter Attempt.succeeded).map Attempt.place = List.range engine.resolved
  actions : engine.actions = (attempts.filter Attempt.succeeded).flatMap Attempt.actions
  ordered : attempts.Pairwise fun earlier later =>
    earlier.place ≤ later.place ∧ (earlier.succeeded = true → earlier.place < later.place)
  place_le : ∀ attempt ∈ attempts, attempt.place ≤ engine.resolved ∧
    (attempt.succeeded = true → attempt.place < engine.resolved)

namespace History

variable {host : Host Memory} {start next last : World Memory}
  {attempts others : List (Attempt Memory)}

theorem of_registers (registers : start.Registers last) : History host start [] last :=
  .registered registers (.nil last)

theorem of_preparation (host : Host Memory) (fuel : Nat) (start : World Memory) :
    History host start (preparation host fuel start).attempts
      (preparation host fuel start).world := by
  have history : History host start _ _ := .prepared fuel (.nil (preparation host fuel start).world)
  rw [List.append_nil] at history
  exact history

theorem append (first : History host start attempts next)
    (second : History host next others last) : History host start (attempts ++ others) last := by
  induction first with
  | nil world => exact second
  | registered registers _ ih => exact .registered registers (ih second)
  | prepared fuel _ ih =>
      rw [List.append_assoc]
      exact .prepared fuel (ih second)

end History

namespace Attempt

theorem actions_of_ok {attempt : Attempt Memory} {actions : List Action}
    (resolved : attempt.result = .ok actions) :
    attempt.succeeded = true ∧ attempt.actions = actions := by
  unfold succeeded Attempt.actions
  rw [resolved]
  exact ⟨rfl, rfl⟩

theorem actions_of_error {attempt : Attempt Memory} {failure : Failure}
    (failed : attempt.result = .error failure) :
    attempt.succeeded = false ∧ attempt.actions = [] := by
  unfold succeeded Attempt.actions
  rw [failed]
  exact ⟨rfl, rfl⟩

theorem actions_of_not_succeeded {attempt : Attempt Memory}
    (failed : attempt.succeeded = false) : attempt.actions = [] := by
  unfold succeeded at failed
  unfold Attempt.actions
  cases result : attempt.result with
  | error failure => rfl
  | ok actions =>
      rw [result] at failed
      cases failed

end Attempt

namespace Cached

variable {engine : Engine} {attempts : List (Attempt Memory)}

theorem of_registers {start last : World Memory} (cached : Cached start.engine attempts)
    (registers : start.Registers last) : Cached last.engine attempts := by
  obtain ⟨added, after⟩ := registers
  rw [after]
  refine { cached with resolved_le := ?_, registered := ?_ }
  · rw [List.length_append]
    exact Nat.le_add_right_of_le cached.resolved_le
  · intro attempt member
    have held := cached.registered attempt member
    have bound := (List.getElem?_eq_some_iff.mp held).1
    rw [List.getElem?_append_left bound]
    exact held

/-- One more attempt at the registration whose turn it is. -/
theorem attempted {attempt : Attempt Memory} (cached : Cached engine attempts)
    (place : attempt.place = engine.resolved)
    (waiting : engine.registrations[engine.resolved]? = some attempt.registration) :
    Cached
      { engine with
        actions := engine.actions ++ attempt.actions
        resolved := engine.resolved + attempt.succeeded.toNat }
      (attempts ++ [attempt]) := by
  have bound := (List.getElem?_eq_some_iff.mp waiting).1
  have grown : attempt.succeeded.toNat ≤ 1 := Bool.toNat_le attempt.succeeded
  refine ⟨?_, ?_, ?_, ?_, ?_, ?_⟩
  · exact Nat.le_trans (Nat.add_le_add_left grown _) bound
  · refine List.forall_mem_append.mpr ⟨cached.registered, ?_⟩
    rw [List.forall_mem_singleton, place]
    exact waiting
  · rw [List.filter_append, List.map_append, cached.places]
    cases succeeded : attempt.succeeded with
    | false => simp [succeeded]
    | true => simp [succeeded, place, List.range_succ]
  · rw [List.filter_append, List.flatMap_append, ← cached.actions]
    cases succeeded : attempt.succeeded with
    | false => simp [succeeded, attempt.actions_of_not_succeeded succeeded]
    | true => simp [succeeded]
  · refine List.pairwise_append.mpr ⟨cached.ordered, List.pairwise_singleton _ _, ?_⟩
    intro earlier member later own
    rw [List.mem_singleton.mp own, place]
    exact cached.place_le earlier member
  · refine List.forall_mem_append.mpr ⟨?_, ?_⟩
    · intro earlier member
      obtain ⟨le, lt⟩ := cached.place_le earlier member
      exact ⟨Nat.le_add_right_of_le le, fun succeeded => Nat.lt_add_right _ (lt succeeded)⟩
    · rw [List.forall_mem_singleton, place]
      refine ⟨Nat.le_add_right _ _, ?_⟩
      intro succeeded
      rw [succeeded]
      exact Nat.lt_succ_self _

end Cached

/-- The course of a preparation: it is cut off, it finds no registration left, the attempt at the
next one fails, or the preparation goes on behind an attempt that succeeds. -/
inductive Prepares (host : Host Memory) : Nat → World Memory → Preparation Memory → Prop where
  | cutOff (world : World Memory) : Prepares host 0 world ⟨[], .error .outOfFuel, world⟩
  | finished (fuel : Nat) {world : World Memory} :
      world.engine.registrations[world.engine.resolved]? = none →
      Prepares host (fuel + 1) world ⟨[], .ok world.engine.actions, world⟩
  | failed {fuel : Nat} {world : World Memory} {registration : Value} {failure : Failure} :
      world.engine.registrations[world.engine.resolved]? = some registration →
      (attempt host fuel world.engine.resolved registration world).result = .error failure →
      Prepares host (fuel + 1) world
        ⟨[attempt host fuel world.engine.resolved registration world], .error failure,
          (attempt host fuel world.engine.resolved registration world).last⟩
  | kept {fuel : Nat} {world : World Memory} {registration : Value} {actions : List Action}
      {rest : Preparation Memory} :
      world.engine.registrations[world.engine.resolved]? = some registration →
      (attempt host fuel world.engine.resolved registration world).result = .ok actions →
      Prepares host fuel (afterKeeping
        (attempt host fuel world.engine.resolved registration world).last actions) rest →
      Prepares host (fuel + 1) world
        (rest.behind (attempt host fuel world.engine.resolved registration world))

theorem prepares_preparation (host : Host Memory) (fuel : Nat) (world : World Memory) :
    Prepares host fuel world (preparation host fuel world) := by
  induction fuel generalizing world with
  | zero => exact .cutOff world
  | succ fuel ih =>
      unfold preparation
      cases waiting : world.engine.registrations[world.engine.resolved]? with
      | none => exact .finished fuel waiting
      | some registration =>
          cases result : (attempt host fuel world.engine.resolved registration world).result with
          | error failure =>
              simp only [result]
              exact .failed waiting result
          | ok actions =>
              simp only [result]
              exact .kept waiting result (ih _)

section Preparation

variable {host : Host Memory} {fuel : Nat} {world : World Memory} {registration : Value}
  {preparation : Preparation Memory}

/-- After an attempt at the registration whose turn it is, its actions are kept if it has
succeeded. -/
theorem Cached.tried {earlier : List (Attempt Memory)} (only : host.OnlyRegisters)
    (cached : Cached world.engine earlier)
    (waiting : world.engine.registrations[world.engine.resolved]? = some registration)
    {tried : Attempt Memory}
    (made : tried = attempt host fuel world.engine.resolved registration world) :
    (∀ failure, tried.result = .error failure →
      Cached tried.last.engine (earlier ++ [tried])) ∧
    ∀ actions, tried.result = .ok actions →
      Cached (tried.last.engine.keeping actions) (earlier ++ [tried]) := by
  have registers : world.Registers tried.last := by
    rw [made]
    exact only.resolve fuel registration world
  obtain ⟨added, after⟩ := registers
  have bound := (List.getElem?_eq_some_iff.mp waiting).1
  have place : tried.place = tried.last.engine.resolved := by
    rw [after, made]
    rfl
  have turn : tried.last.engine.registrations[tried.last.engine.resolved]? =
      some tried.registration := by
    rw [after, made]
    exact (List.getElem?_append_left bound).trans waiting
  have next := (cached.of_registers ⟨added, after⟩).attempted place turn
  constructor
  · intro failure failed
    obtain ⟨failed, none⟩ := Attempt.actions_of_error failed
    rw [failed, none, List.append_nil] at next
    exact next
  · intro actions resolved
    obtain ⟨succeeded, own⟩ := Attempt.actions_of_ok resolved
    rw [succeeded, own] at next
    exact next

namespace Prepares

/-- After each preparation what an engine holds comes from the attempts up to its end. -/
theorem cached {earlier : List (Attempt Memory)} (prepares : Prepares host fuel world preparation)
    (only : host.OnlyRegisters) (cached : Cached world.engine earlier) :
    Cached preparation.world.engine (earlier ++ preparation.attempts) := by
  induction prepares generalizing earlier with
  | cutOff world =>
      rw [List.append_nil]
      exact cached
  | finished fuel all =>
      rw [List.append_nil]
      exact cached
  | failed waiting result => exact (cached.tried only waiting rfl).1 _ result
  | kept waiting result _ ih =>
      have later := ih ((cached.tried only waiting rfl).2 _ result)
      rw [List.append_assoc] at later
      exact later

/-- What an engine holds at the start of an attempt of a preparation comes from the attempts before
it. -/
theorem cached_at {earlier front back : List (Attempt Memory)} {next : Attempt Memory}
    (prepares : Prepares host fuel world preparation) (only : host.OnlyRegisters)
    (cached : Cached world.engine earlier)
    (split : preparation.attempts = front ++ next :: back) :
    Cached next.start.engine (earlier ++ front) := by
  have absent (others : List (Attempt Memory)) : others ++ next :: back ≠ [] :=
    List.append_ne_nil_of_right_ne_nil others (List.cons_ne_nil next back)
  induction prepares generalizing earlier front with
  | cutOff world => exact absurd split.symm (absent front)
  | finished fuel all => exact absurd split.symm (absent front)
  | failed waiting result =>
      cases front with
      | nil =>
          obtain ⟨rfl, -⟩ := List.cons.inj split
          rw [List.append_nil]
          exact cached
      | cons first front => exact absurd (List.cons.inj split).2.symm (absent front)
  | kept waiting result _ ih =>
      cases front with
      | nil =>
          obtain ⟨rfl, -⟩ := List.cons.inj split
          rw [List.append_nil]
          exact cached
      | cons first front =>
          obtain ⟨rfl, others⟩ := List.cons.inj split
          have later := ih ((cached.tried only waiting rfl).2 _ result) others
          rw [List.append_assoc] at later
          exact later

/-- A preparation ends when no registration is left, and then all its attempts have succeeded. -/
theorem succeeds {actions : List Action} (prepares : Prepares host fuel world preparation)
    (prepared : preparation.result = .ok actions) :
    actions = preparation.world.engine.actions ∧
      preparation.world.engine.registrations.length ≤ preparation.world.engine.resolved ∧
      ∀ attempt ∈ preparation.attempts, attempt.succeeded = true := by
  induction prepares with
  | cutOff world => cases prepared
  | finished fuel all =>
      cases prepared
      exact ⟨rfl, List.getElem?_eq_none_iff.mp all, List.forall_mem_nil _⟩
  | failed waiting result => cases prepared
  | kept waiting result _ ih =>
      obtain ⟨same, all, succeeded⟩ := ih prepared
      exact ⟨same, all,
        List.forall_mem_cons.mpr ⟨(Attempt.actions_of_ok result).1, succeeded⟩⟩

/-- A preparation fails with its last attempt, unless it is cut off, and all attempts before have
succeeded. -/
theorem fails {failure : Failure} (prepares : Prepares host fuel world preparation)
    (failed : preparation.result = .error failure) :
    ∃ front back, preparation.attempts = front ++ back ∧
      (∀ attempt ∈ front, attempt.succeeded = true) ∧
      (back = [] ∧ failure = .outOfFuel ∨
        ∃ last, back = [last] ∧ last.result = .error failure) := by
  induction prepares with
  | cutOff world =>
      cases failed
      exact ⟨[], [], rfl, List.forall_mem_nil _, Or.inl ⟨rfl, rfl⟩⟩
  | finished fuel all => cases failed
  | failed waiting result =>
      cases failed
      exact ⟨[], _, rfl, List.forall_mem_nil _, Or.inr ⟨_, rfl, result⟩⟩
  | kept waiting result _ ih =>
      obtain ⟨front, back, attempts, succeeded, ended⟩ := ih failed
      refine ⟨_ :: front, back, ?_,
        List.forall_mem_cons.mpr ⟨(Attempt.actions_of_ok result).1, succeeded⟩, ended⟩
      exact congrArg (List.cons _) attempts

/-- The attempts of a preparation are attempts to resolve registrations. -/
theorem genuine {attempt : Attempt Memory} (prepares : Prepares host fuel world preparation)
    (member : attempt ∈ preparation.attempts) :
    ∃ fuel', attempt =
      Engine.attempt host fuel' attempt.place attempt.registration attempt.start := by
  induction prepares with
  | cutOff world => cases member
  | finished fuel all => cases member
  | @failed fuel _ _ _ waiting result =>
      rw [List.mem_singleton.mp member]
      exact ⟨fuel, rfl⟩
  | @kept fuel _ _ _ _ waiting result _ ih =>
      rcases List.mem_cons.mp member with rfl | later
      · exact ⟨fuel, rfl⟩
      · exact ih later

end Prepares

end Preparation

namespace History

variable {host : Host Memory} {start last : World Memory} {attempts : List (Attempt Memory)}

/-- Whatever has happened, what an engine holds comes from the attempts that have been made. -/
theorem cached {earlier : List (Attempt Memory)} (history : History host start attempts last)
    (only : host.OnlyRegisters) (cached : Cached start.engine earlier) :
    Cached last.engine (earlier ++ attempts) := by
  induction history generalizing earlier with
  | nil world =>
      rw [List.append_nil]
      exact cached
  | registered registers _ ih => exact ih (cached.of_registers registers)
  | prepared fuel _ ih =>
      rw [← List.append_assoc]
      exact ih ((prepares_preparation host fuel _).cached only cached)

/-- What an engine holds at the start of each attempt comes from the attempts before it. -/
theorem cached_at {earlier front back : List (Attempt Memory)} {next : Attempt Memory}
    (history : History host start attempts last) (only : host.OnlyRegisters)
    (cached : Cached start.engine earlier) (split : attempts = front ++ next :: back) :
    Cached next.start.engine (earlier ++ front) := by
  induction history generalizing earlier front with
  | nil world =>
      have filled := List.append_ne_nil_of_right_ne_nil front (List.cons_ne_nil next back)
      exact absurd split.symm filled
  | registered registers _ ih => exact ih (cached.of_registers registers) split
  | @prepared fuel start last attempts _ ih =>
      have prepares := prepares_preparation host fuel start
      -- The attempt is one of this preparation, or one of what happens behind it.
      rcases List.append_eq_append_iff.mp split with ⟨between, rfl, rest⟩ | ⟨between, own, rest⟩
      · rw [← List.append_assoc]
        exact ih (prepares.cached only cached) rest
      · cases between with
        | nil =>
            rw [List.append_nil] at own
            rw [← own]
            rw [List.nil_append] at rest
            have later := ih (prepares.cached only cached)
              (rest.symm.trans (List.nil_append _).symm)
            rw [List.append_nil] at later
            exact later
        | cons first between =>
            obtain ⟨rfl, -⟩ := List.cons.inj rest
            exact prepares.cached_at only cached own

theorem genuine (history : History host start attempts last) {attempt : Attempt Memory}
    (member : attempt ∈ attempts) :
    ∃ fuel, attempt =
      Engine.attempt host fuel attempt.place attempt.registration attempt.start := by
  induction history with
  | nil world => cases member
  | registered _ _ ih => exact ih member
  | prepared fuel _ ih =>
      rcases List.mem_append.mp member with own | later
      · exact (prepares_preparation host fuel _).genuine own
      · exact ih later

end History

namespace Cached

variable {engine : Engine} {earlier later : List (Attempt Memory)}

theorem resolved_eq (cached : Cached engine earlier) :
    engine.resolved = (earlier.filter Attempt.succeeded).length := by
  have count := congrArg List.length cached.places
  rw [List.length_map, List.length_range] at count
  exact count.symm

/-- Later attempts are for registrations that have not been resolved before. -/
theorem resolved_le_place {other : Engine} (before : Cached engine earlier)
    (after : Cached other (earlier ++ later)) {next : Attempt Memory} (member : next ∈ later) :
    engine.resolved ≤ next.place := by
  cases count : engine.resolved with
  | zero => exact Nat.zero_le _
  | succ resolved =>
      have last : resolved ∈ List.range engine.resolved := by
        rw [count]
        exact List.self_mem_range_succ
      rw [← before.places] at last
      obtain ⟨attempt, made, place⟩ := List.mem_map.mp last
      obtain ⟨made, succeeded⟩ := List.mem_filter.mp made
      have order := (List.pairwise_append.mp after.ordered).2.2 attempt made next member
      rw [← place]
      exact order.2 succeeded

/-- More attempts add what they have come to. -/
theorem grown {other : Engine} (before : Cached engine earlier)
    (after : Cached other (earlier ++ later)) :
    other.actions = engine.actions ++ (later.filter Attempt.succeeded).flatMap Attempt.actions ∧
      other.resolved = engine.resolved + (later.filter Attempt.succeeded).length := by
  rw [after.actions, before.actions, after.resolved_eq, before.resolved_eq, List.filter_append,
    List.flatMap_append, List.length_append]
  exact ⟨rfl, rfl⟩

end Cached

theorem cached_ofOptions (options : Options) :
    Cached (ofOptions options) ([] : List (Attempt Memory)) :=
  ⟨Nat.zero_le _, List.forall_mem_nil _, rfl, rfl, List.Pairwise.nil, List.forall_mem_nil _⟩

end Engine

end LineScript
