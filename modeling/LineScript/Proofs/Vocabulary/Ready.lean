import LineScript.Proofs.Run.Alike
import LineScript.Proofs.Run.Approval
import LineScript.Proofs.Vocabulary.Attempts

/-!
# Engines of plain actions

An engine that only actions have been registered with is *of* these actions, whether it has been
prepared or not. Preparing it comes to these actions and calls nothing, so that a script runs with
them and its lines alone (`LineScript.Engine.IsOf.prepare_run`).
-/

namespace LineScript.Engine

variable {Memory : Type}

/-- Whether exactly some actions have been registered with an engine, and the first of them are
resolved. -/
structure IsOf (engine : Engine) (actions : List Action) : Prop where
  registrations : engine.registrations = actions.map .action
  resolved : engine.resolved ≤ actions.length
  actions : engine.actions = actions.take engine.resolved

/-- The actions that a new engine starts with. -/
def firstActions (options : Options) : List Action :=
  if options.common.truthy then Bundled.Comments.actions else []

theorem isOf_ofOptions (options : Options) :
    (ofOptions options).IsOf (firstActions options) := by
  refine ⟨?_, Nat.zero_le _, rfl⟩
  unfold ofOptions firstActions
  by_cases common : options.common.truthy
  · rw [if_pos common, if_pos common]
  · rw [if_neg common, if_neg common]
    rfl

/-- The actions of an engine that the bundled actions have been registered with. -/
def bundledActions (options : Options) : List Action :=
  firstActions options ++ Bundled.actions

theorem length_bundledActions_le (options : Options) : (bundledActions options).length ≤ 5 := by
  unfold bundledActions firstActions
  split <;> decide

/-- All these actions are for texts. -/
theorem sentinel?_of_mem_bundledActions {options : Options} :
    ∀ action ∈ bundledActions options, action.sentinel? = none := by
  have bundled : ∀ action ∈ Bundled.actions, action.sentinel? = none :=
    List.forall_mem_cons.mpr
      ⟨rfl, List.forall_mem_cons.mpr ⟨rfl, List.forall_mem_singleton.mpr rfl⟩⟩
  have comments : ∀ action ∈ Bundled.Comments.actions, action.sentinel? = none :=
    List.forall_mem_cons.mpr ⟨rfl, List.forall_mem_singleton.mpr rfl⟩
  unfold bundledActions firstActions
  split
  · exact List.forall_mem_append.mpr ⟨comments, bundled⟩
  · exact bundled

namespace IsOf

variable {engine : Engine} {actions : List Action}

/-- An engine that more actions are registered with is of these too. -/
theorem append (own : engine.IsOf actions) (added : List Action) :
    ({ engine with registrations := engine.registrations ++ added.map .action } : Engine).IsOf
      (actions ++ added) := by
  refine ⟨?_, ?_, ?_⟩
  · rw [List.map_append, ← own.registrations]
  · rw [List.length_append]
    exact Nat.le_add_right_of_le own.resolved
  · rw [List.take_append_of_le_length own.resolved]
    exact own.actions

theorem register (own : engine.IsOf actions) (added : List Action) :
    (engine.register (.list (added.map .action))).IsOf (actions ++ added) :=
  own.append added

theorem bundled (options : Options) :
    ((ofOptions options).register (.list (Bundled.actions.map .action))).IsOf
      (bundledActions options) :=
  (isOf_ofOptions options).register Bundled.actions

/-- The next action of an engine is resolved to itself. -/
theorem keeping (own : engine.IsOf actions) (next : engine.resolved < actions.length) :
    (engine.keeping [actions[engine.resolved]]).IsOf actions := by
  refine ⟨own.registrations, next, ?_⟩
  unfold Engine.keeping
  rw [own.actions]
  exact List.take_append_getElem next

/-- Preparing an engine of some actions comes to these and calls nothing. -/
theorem prepare_run (host : Host Memory) {world : World Memory} {fuel : Nat}
    (own : world.engine.IsOf actions) (enough : actions.length < world.engine.resolved + fuel) :
    ∃ last : World Memory, (prepare host fuel).run world = (.ok actions, last) ∧
      last.engine.IsOf actions ∧ last.memory = world.memory := by
  induction fuel generalizing world with
  | zero => exact absurd own.resolved (Nat.not_le.mpr enough)
  | succ fuel ih =>
      by_cases next : world.engine.resolved < actions.length
      · have waiting : world.engine.registrations[world.engine.resolved]? =
            some (.action actions[world.engine.resolved]) := by
          rw [own.registrations, List.getElem?_map, List.getElem?_eq_getElem next]
          rfl
        cases fuel with
        | zero => omega
        | succ fuel =>
            have resolved : (Registration.resolve host (fuel + 1)
                (.action actions[world.engine.resolved])).run world =
                  (.ok [actions[world.engine.resolved]], world) := rfl
            have after : (afterKeeping world [actions[world.engine.resolved]]).engine.IsOf
              actions := own.keeping next
            have count : actions.length <
                (afterKeeping world [actions[world.engine.resolved]]).engine.resolved +
                  (fuel + 1) := by
              change actions.length < world.engine.resolved + 1 + (fuel + 1)
              omega
            obtain ⟨last, prepared, ready, memory⟩ := ih after count
            refine ⟨last, ?_, ready, memory⟩
            rw [prepare_run_of_ok waiting resolved]
            exact prepared
      · have all : world.engine.registrations[world.engine.resolved]? = none := by
          rw [own.registrations, List.getElem?_eq_none_iff, List.length_map]
          exact Nat.le_of_not_lt next
        refine ⟨world, ?_, own, rfl⟩
        rw [prepare_run_of_none all, own.actions, List.take_of_length_le (Nat.le_of_not_lt next)]

end IsOf

end LineScript.Engine
