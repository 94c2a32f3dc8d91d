import LineScript.Proofs.Run.Fuel
import LineScript.Proofs.Vocabulary.Attempts
import LineScript.Proofs.Vocabulary.Flattening

/-!
# Registrations that can be resolved again

Resolving a registration *repeats* if it leaves the engine as it is and comes to the same whatever
the engine has cached and its host remembers. If this holds of all registrations of an engine, then
what preparing it comes to depends on them alone, and not on how far it has been prepared before
(`LineScript.Engine.prepare_underway`, `LineScript.Engine.prepare_settles`).
-/

namespace LineScript

variable {Memory α β : Type} {host : Host Memory} {base : Engine} {Kept : Memory → Prop}

/-- Whether a world has the options and the registrations of an engine, and a memory of some
kind. -/
structure World.Within (base : Engine) (Kept : Memory → Prop) (world : World Memory) : Prop where
  options : world.engine.options = base.options
  registrations : world.engine.registrations = base.registrations
  memory : Kept world.memory

/-- Whether a query leaves the engine as it is, and a memory of the same kind. -/
structure Stays (base : Engine) (Kept : Memory → Prop) (α : Type) (query : Query Memory α) :
    Prop where
  engine : ∀ start, start.Within base Kept → (query.run start).2.engine = start.engine
  memory : ∀ start, start.Within base Kept → Kept (query.run start).2.memory

/-- Whether a query comes to the same whatever the engine has cached and the memory holds, and
leaves the engine as it is. -/
structure Repeats (base : Engine) (Kept : Memory → Prop) (α : Type) (query : Query Memory α) : Prop
    extends Stays base Kept α query where
  same : ∀ start other, start.Within base Kept → other.Within base Kept →
    (query.run start).1 = (query.run other).1

theorem World.Within.of_engine {start last : World Memory} (within : start.Within base Kept)
    (engine : last.engine = start.engine) (memory : Kept last.memory) : last.Within base Kept where
  options := (congrArg Engine.options engine).trans within.options
  registrations := (congrArg Engine.registrations engine).trans within.registrations
  memory := memory

theorem Stays.within {query : Query Memory α} (stays : Stays base Kept α query)
    {start : World Memory} (within : start.Within base Kept) :
    (query.run start).2.Within base Kept :=
  within.of_engine (stays.engine start within) (stays.memory start within)

theorem Stays.bind {first : Query Memory α} {next : α → Query Memory β}
    (stays : Stays base Kept α first)
    (rest : ∀ start value last, start.Within base Kept → first.run start = (.ok value, last) →
      Stays base Kept β (next value)) : Stays base Kept β (first >>= next) := by
  refine ⟨?_, ?_⟩
  all_goals
    intro start within
    have after := stays.within within
    have engine := stays.engine start within
    rcases done : first.run start with ⟨failure | value, last⟩
    all_goals rw [done] at after engine
  · rw [run_bind_of_error done]
    exact engine
  · rw [run_bind_of_ok done]
    exact ((rest start value last within done).engine last after).trans engine
  · rw [run_bind_of_error done]
    exact after.memory
  · rw [run_bind_of_ok done]
    exact (rest start value last within done).memory last after

theorem Repeats.bind {first : Query Memory α} {next : α → Query Memory β}
    (repeats : Repeats base Kept α first)
    (rest : ∀ start value last, start.Within base Kept → first.run start = (.ok value, last) →
      Repeats base Kept β (next value)) : Repeats base Kept β (first >>= next) := by
  refine ⟨repeats.toStays.bind fun start value last within done =>
    (rest start value last within done).toStays, ?_⟩
  intro start other within within'
  have result := repeats.same start other within within'
  have after := repeats.within within
  have after' := repeats.within within'
  rcases one : first.run start with ⟨failure | value, last⟩
  · rcases two : first.run other with ⟨answer, final⟩
    rw [one, two] at result
    obtain rfl : .error failure = answer := result
    rw [run_bind_of_error one, run_bind_of_error two]
  · rcases two : first.run other with ⟨answer, final⟩
    rw [one, two] at result
    obtain rfl : .ok value = answer := result
    rw [one] at after
    rw [two] at after'
    rw [run_bind_of_ok one, run_bind_of_ok two]
    exact (rest start value last within one).same last final after after'

theorem sequential_repeats (base : Engine) (Kept : Memory → Prop) :
    Sequential (Repeats base Kept) where
  pure _ := ⟨⟨fun _ _ => rfl, fun _ within => within.memory⟩, fun _ _ _ _ => rfl⟩
  throw _ := ⟨⟨fun _ _ => rfl, fun _ within => within.memory⟩, fun _ _ _ _ => rfl⟩
  bind repeats rest := repeats.bind fun start value last _ done => rest start value last done

theorem repeats_note (notice : Notice) :
    Repeats base Kept Unit (Query.note notice : Query Memory Unit) :=
  ⟨⟨fun _ _ => rfl, fun _ within => within.memory⟩, fun _ _ _ _ => rfl⟩

namespace Registration

theorem resolveAll_repeats {registrations : List Value}
    (repeats : ∀ registration ∈ registrations, ∀ fuel,
      Repeats base Kept (List Action) (resolve host fuel registration)) (fuel : Nat) :
    Repeats base Kept (List Action) (resolveAll host fuel registrations) := by
  have sequential := sequential_repeats base Kept
  induction fuel generalizing registrations with
  | zero => exact sequential.throw _
  | succ fuel ih =>
      cases registrations with
      | nil => exact sequential.pure _
      | cons registration others =>
          obtain ⟨own, rest⟩ := List.forall_mem_cons.mp repeats
          exact sequential.andThen (own fuel) fun _ => sequential.map (ih rest) _

/-- Whether a registration is made of leaves, lists of such registrations, and functions that answer
with such a registration, and with the same one each time. -/
inductive Steady (host : Host Memory) (base : Engine) (Kept : Memory → Prop) : Value → Prop where
  | leaf {value : Value} : value.isLeaf = true → Steady host base Kept value
  | list {items : List Value} :
      (∀ item ∈ items, Steady host base Kept item) → Steady host base Kept (.list items)
  | tuple {items : List Value} :
      (∀ item ∈ items, Steady host base Kept item) → Steady host base Kept (.tuple items)
  | callable {function : Callable} :
      Repeats base Kept Value (host.callGenerator function) →
      (∀ start value last, start.Within base Kept →
        (host.callGenerator function).run start = (.ok value, last) →
        Steady host base Kept value) →
      Steady host base Kept (.callable function)

/-- Steady registrations can be resolved again. -/
theorem Steady.repeats {registration : Value} (steady : Steady host base Kept registration)
    (fuel : Nat) : Repeats base Kept (List Action) (resolve host fuel registration) := by
  have sequential := sequential_repeats base Kept
  induction steady generalizing fuel with
  | leaf leaf =>
      cases fuel with
      | zero => exact sequential.throw _
      | succ fuel =>
          obtain ⟨outcome, resolves, -⟩ := exists_outcome_of_isLeaf leaf host
          refine ⟨⟨?_, ?_⟩, ?_⟩
          · intro start within
            rw [resolves]
          · intro start within
            rw [resolves]
            exact within.memory
          · intro start other _ _
            rw [resolves, resolves]
  | list _ ih =>
      cases fuel with
      | zero => exact sequential.throw _
      | succ fuel => exact resolveAll_repeats ih fuel
  | tuple _ ih =>
      cases fuel with
      | zero => exact sequential.throw _
      | succ fuel => exact resolveAll_repeats ih fuel
  | callable answers _ ih =>
      cases fuel with
      | zero => exact sequential.throw _
      | succ fuel =>
          refine (repeats_note _).bind fun _ _ _ _ _ => ?_
          exact answers.bind fun start value last within done =>
            ih start value last within done fuel

/-- Whether resolving a registration comes to some result with enough fuel, whatever the engine has
cached. -/
def ResolvesTo (host : Host Memory) (base : Engine) (Kept : Memory → Prop) (registration : Value)
    (result : Except Failure (List Action)) : Prop :=
  ∃ enough, ∀ fuel, enough ≤ fuel → ∀ world, world.Within base Kept →
    ((resolve host fuel registration).run world).1 = result

/-- What some actions and some registrations come to, one after the other: the failure of the first
registration that fails, or these actions and those of all registrations. -/
inductive Accumulate (host : Host Memory) (base : Engine) (Kept : Memory → Prop) :
    List Action → List Value → Except Failure (List Action) → Prop where
  | nil (actions : List Action) : Accumulate host base Kept actions [] (.ok actions)
  | failed (actions : List Action) {registration : Value} {failure : Failure}
      (others : List Value) :
      ResolvesTo host base Kept registration (.error failure) →
      Accumulate host base Kept actions (registration :: others) (.error failure)
  | cons {actions more : List Action} {registration : Value} {others : List Value}
      {result : Except Failure (List Action)} :
      ResolvesTo host base Kept registration (.ok more) →
      Accumulate host base Kept (actions ++ more) others result →
      Accumulate host base Kept actions (registration :: others) result

/-- An attempt that is not cut off shows what a registration comes to. -/
theorem resolvesTo_of_run {registration : Value}
    (repeats : ∀ fuel, Repeats base Kept (List Action) (resolve host fuel registration))
    {world : World Memory} (within : world.Within base Kept) (fuel : Nat)
    (ended : ((resolve host fuel registration).run world).1 ≠ .error .outOfFuel) :
    ResolvesTo host base Kept registration ((resolve host fuel registration).run world).1 := by
  refine ⟨fuel, fun larger enough other within' => ?_⟩
  obtain ⟨more, rfl⟩ := Nat.exists_eq_add_of_le enough
  rw [(repeats _).same other world within' within,
    (resolve_add_fuel host fuel more).one registration world ended]

theorem ResolvesTo.unique {registration : Value} {result other : Except Failure (List Action)}
    {world : World Memory} (within : world.Within base Kept)
    (one : ResolvesTo host base Kept registration result)
    (two : ResolvesTo host base Kept registration other) : result = other := by
  obtain ⟨enough, resolved⟩ := one
  obtain ⟨enough', resolved'⟩ := two
  rw [← resolved (max enough enough') (Nat.le_max_left _ _) world within,
    resolved' (max enough enough') (Nat.le_max_right _ _) world within]

theorem ResolvesTo.settles {registration : Value} {result : Except Failure (List Action)}
    (resolves : ResolvesTo host base Kept registration result) {world : World Memory}
    (within : world.Within base Kept) (ended : result ≠ .error .outOfFuel) :
    ∃ last, Settles (fun fuel => resolve host fuel registration) world result last := by
  obtain ⟨least, resolves⟩ := resolves
  have own := resolves least (Nat.le_refl least) world within
  refine ⟨((resolve host least registration).run world).2, least, fun fuel enough => ?_⟩
  obtain ⟨more, rfl⟩ := Nat.exists_eq_add_of_le enough
  rw [← own] at ended ⊢
  exact (resolve_add_fuel host least more).one registration world ended

namespace Accumulate

variable {front back : List Value} {actions between : List Action}
  {result : Except Failure (List Action)}

theorem append (own : Accumulate host base Kept actions front (.ok between))
    (rest : Accumulate host base Kept between back result) :
    Accumulate host base Kept actions (front ++ back) result := by
  induction front generalizing actions with
  | nil =>
      cases own
      exact rest
  | cons registration front ih =>
      cases own with
      | cons resolved others => exact .cons resolved (ih others)

/-- What stands behind registrations that come to some actions decides what all of them come to. -/
theorem of_append {world : World Memory} (within : world.Within base Kept)
    (own : Accumulate host base Kept actions front (.ok between))
    (all : Accumulate host base Kept actions (front ++ back) result) :
    Accumulate host base Kept between back result := by
  induction front generalizing actions with
  | nil =>
      cases own
      exact all
  | cons registration front ih =>
      cases own with
      | cons resolved others =>
          cases all with
          | failed _ _ refused => cases resolved.unique within refused
          | cons resolved' others' =>
              obtain rfl := Except.ok.inj (resolved.unique within resolved')
              exact ih others others'

end Accumulate

end Registration

namespace Engine

/-- The engine with all its registrations resolved. -/
def readyWith (engine : Engine) (actions : List Action) : Engine :=
  { engine with actions := actions, resolved := engine.registrations.length }

/-- Whether an engine has been prepared up to some registration: its actions are those of the
registrations before. -/
structure Underway (host : Host Memory) (base : Engine) (Kept : Memory → Prop)
    (world : World Memory) : Prop extends world.Within base Kept where
  resolved_le : world.engine.resolved ≤ base.registrations.length
  held : Registration.Accumulate host base Kept []
    (base.registrations.take world.engine.resolved) (.ok world.engine.actions)

namespace Underway

variable {world : World Memory}

theorem of_engine {last : World Memory} (underway : Underway host base Kept world)
    (engine : last.engine = world.engine) (memory : Kept last.memory) :
    Underway host base Kept last where
  toWithin := underway.toWithin.of_engine engine memory
  resolved_le := by
    rw [engine]
    exact underway.resolved_le
  held := by
    rw [engine]
    exact underway.held

theorem next (underway : Underway host base Kept world) :
    world.engine.registrations[world.engine.resolved]? =
      base.registrations[world.engine.resolved]? := by
  rw [underway.registrations]

/-- A new engine is about to resolve its first registration. -/
theorem of_new (within : world.Within base Kept) (resolved : world.engine.resolved = 0)
    (actions : world.engine.actions = []) : Underway host base Kept world where
  toWithin := within
  resolved_le := by
    rw [resolved]
    exact Nat.zero_le _
  held := by
    rw [resolved, actions]
    exact .nil []

/-- All registrations come to what those that have not been resolved come to. -/
theorem accumulate {result : Except Failure (List Action)}
    (underway : Underway host base Kept world)
    (rest : Registration.Accumulate host base Kept world.engine.actions
      (base.registrations.drop world.engine.resolved) result) :
    Registration.Accumulate host base Kept [] base.registrations result := by
  have all := underway.held.append rest
  rw [List.take_append_drop] at all
  exact all

theorem remaining {result : Except Failure (List Action)}
    (underway : Underway host base Kept world)
    (all : Registration.Accumulate host base Kept [] base.registrations result) :
    Registration.Accumulate host base Kept world.engine.actions
      (base.registrations.drop world.engine.resolved) result := by
  rw [← List.take_append_drop world.engine.resolved base.registrations] at all
  exact underway.held.of_append underway.toWithin all

/-- With all registrations resolved the engine is ready. -/
theorem engine_eq (underway : Underway host base Kept world)
    (all : world.engine.resolved = base.registrations.length) :
    world.engine = base.readyWith world.engine.actions := by
  unfold readyWith
  rw [← all, ← underway.options, ← underway.registrations]

/-- The next registration has been resolved. -/
theorem afterKeeping {registration : Value} {actions : List Action}
    (underway : Underway host base Kept world)
    (waiting : base.registrations[world.engine.resolved]? = some registration)
    (resolved : Registration.ResolvesTo host base Kept registration (.ok actions)) :
    Underway host base Kept (afterKeeping world actions) where
  options := underway.options
  registrations := underway.registrations
  memory := underway.memory
  resolved_le := (List.getElem?_eq_some_iff.mp waiting).1
  held := by
    have one : Registration.Accumulate host base Kept world.engine.actions [registration]
        (.ok (world.engine.actions ++ actions)) := .cons resolved (.nil _)
    have all := underway.held.append one
    change Registration.Accumulate host base Kept []
      (base.registrations.take (world.engine.resolved + 1)) _
    rw [List.take_add_one, waiting]
    exact all

end Underway

/-- Whether a preparation leaves an engine that is prepared up to some registration, comes to what
the registrations come to if it is not cut off, and leaves the engine ready if it succeeds. -/
structure PreparesAs (host : Host Memory) (base : Engine) (Kept : Memory → Prop)
    (result : Except Failure (List Action)) (last : World Memory) : Prop where
  underway : Underway host base Kept last
  accumulate : result ≠ .error .outOfFuel →
    Registration.Accumulate host base Kept [] base.registrations result
  ready : ∀ actions, result = .ok actions → last.engine = base.readyWith actions

theorem drop_eq_cons_of_getElem? {registrations others : List Value} {registration : Value}
    {place : Nat} : registrations.drop place = registration :: others ↔
      registrations[place]? = some registration ∧ registrations.drop (place + 1) = others := by
  constructor
  · intro same
    have first := congrArg List.head? same
    have rest := congrArg List.tail same
    rw [List.head?_drop] at first
    rw [List.tail_drop] at rest
    exact ⟨first, rest⟩
  · rintro ⟨waiting, rfl⟩
    obtain ⟨bound, rfl⟩ := List.getElem?_eq_some_iff.mp waiting
    exact List.drop_eq_getElem_cons bound

section Preparations

variable (repeats : ∀ registration ∈ base.registrations, ∀ fuel,
  Repeats base Kept (List Action) (Registration.resolve host fuel registration))

include repeats

/-- However far an engine has been prepared, preparing it comes to what its registrations come
to. -/
theorem prepare_underway (fuel : Nat) {world : World Memory}
    (underway : Underway host base Kept world) :
    PreparesAs host base Kept ((prepare host fuel).run world).1
      ((prepare host fuel).run world).2 := by
  induction fuel generalizing world with
  | zero => exact ⟨underway, fun ended => absurd rfl ended, fun _ succeeds => nomatch succeeds⟩
  | succ fuel ih =>
      cases waiting : base.registrations[world.engine.resolved]? with
      | none =>
          have all := List.getElem?_eq_none_iff.mp waiting
          rw [prepare_run_of_none (underway.next.trans waiting)]
          refine ⟨underway, fun _ => underway.accumulate ?_, ?_⟩
          · rw [List.drop_eq_nil_of_le all]
            exact .nil _
          · rintro actions ⟨⟩
            exact underway.engine_eq (Nat.le_antisymm underway.resolved_le all)
      | some registration =>
          have own := repeats registration (List.mem_of_getElem? waiting)
          have engine := (own fuel).engine world underway.toWithin
          have after := underway.of_engine engine ((own fuel).memory world underway.toWithin)
          have resolves := Registration.resolvesTo_of_run own underway.toWithin fuel
          rcases resolved : (Registration.resolve host fuel registration).run world with
            ⟨failure | actions, last⟩
          all_goals rw [resolved] at engine after resolves
          · rw [prepare_run_of_error (underway.next.trans waiting) resolved]
            refine ⟨after, fun ended => underway.accumulate ?_, fun _ succeeds => nomatch succeeds⟩
            rw [drop_eq_cons_of_getElem?.mpr ⟨waiting, rfl⟩]
            exact .failed _ _ (resolves ended)
          · rw [prepare_run_of_ok (underway.next.trans waiting) resolved]
            rw [← engine] at waiting
            exact ih (after.afterKeeping waiting (resolves (by simp)))

/-- However far an engine has been prepared, preparing it with enough fuel comes to what its
registrations come to. -/
theorem prepare_settles {result : Except Failure (List Action)}
    (all : Registration.Accumulate host base Kept [] base.registrations result)
    (ended : result ≠ .error .outOfFuel) {world : World Memory}
    (underway : Underway host base Kept world) :
    ∃ last, Registration.Settles (prepare host) world result last := by
  have rest := underway.remaining all
  clear all
  generalize left : base.registrations.drop world.engine.resolved = waiting at rest
  generalize known : world.engine.actions = actions at rest
  induction rest generalizing world with
  | nil actions =>
      have none := List.getElem?_eq_none (List.drop_eq_nil_iff.mp left)
      refine ⟨world, 1, fun fuel enough => ?_⟩
      obtain ⟨fuel, rfl⟩ := Nat.exists_eq_add_of_le' enough
      rw [prepare_run_of_none (underway.next.trans none), known]
  | failed actions others refused =>
      obtain ⟨waiting, -⟩ := drop_eq_cons_of_getElem?.mp left
      obtain ⟨last, least, fails⟩ := refused.settles underway.toWithin ended
      refine ⟨last, least + 1, fun fuel enough => ?_⟩
      obtain ⟨more, rfl⟩ := Nat.exists_eq_add_of_le' enough
      exact prepare_run_of_error (underway.next.trans waiting) (fails _ (Nat.le_add_left _ more))
  | @cons _ more registration _ _ resolved _ ih =>
      obtain ⟨waiting, rest⟩ := drop_eq_cons_of_getElem?.mp left
      obtain ⟨last, least, resolves⟩ := resolved.settles underway.toWithin (by simp)
      have own := repeats registration (List.mem_of_getElem? waiting) least
      have engine := own.engine world underway.toWithin
      have after := underway.of_engine engine (own.memory world underway.toWithin)
      rw [resolves least (Nat.le_refl least)] at engine after
      have waiting' : base.registrations[last.engine.resolved]? = some registration := by
        rw [engine]
        exact waiting
      have kept := after.afterKeeping waiting' resolved
      obtain ⟨final, settles⟩ := ih ended kept
        (by rw [← rest, ← engine]; rfl) (by rw [← known, ← engine]; rfl)
      refine ⟨final, settles.step ⟨least, fun fuel enough => ?_⟩⟩
      exact prepare_run_of_ok (underway.next.trans waiting) (resolves fuel enough)

end Preparations

end Engine

end LineScript
