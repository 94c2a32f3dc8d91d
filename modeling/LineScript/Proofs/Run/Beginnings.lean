import LineScript.Proofs.Run.Uses

/-!
# Actions in front of all others

An engine *begins with* some actions if these have been registered before anything else. Then they
come first among its actions too, as far as they have been resolved. However an engine is used, it
keeps what it begins with (`LineScript.Run.after_keepsFirst`), and once it has been prepared these
actions stand in front of all others.
-/

namespace LineScript

variable {Memory : Type} {given : List Action}

/-- Whether some actions have been registered with an engine before anything else, and come first
among its actions as far as registrations have been resolved. -/
structure Engine.BeginsWith (engine : Engine) (given : List Action) : Prop where
  registered : given.map .action <+: engine.registrations
  actions : engine.actions.take given.length = given.take engine.resolved

theorem Engine.ofOptions_beginsWith {options : Options} (common : options.common.truthy = true) :
    (Engine.ofOptions options).BeginsWith Bundled.Comments.actions := by
  have registered : (Engine.ofOptions options).registrations =
      Bundled.Comments.actions.map .action := if_pos common
  exact ⟨registered ▸ List.prefix_refl _, rfl⟩

namespace Engine.BeginsWith

variable {engine : Engine}

/-- Where all registrations have been resolved, the actions stand in front of all others. -/
theorem exists_append (begins : engine.BeginsWith given)
    (all : engine.registrations.length ≤ engine.resolved) :
    ∃ others, engine.actions = given ++ others := by
  have bound := begins.registered.length_le
  rw [List.length_map] at bound
  have first := begins.actions
  rw [List.take_of_length_le (Nat.le_trans bound all)] at first
  refine ⟨engine.actions.drop given.length, ?_⟩
  calc
    engine.actions = engine.actions.take given.length ++ engine.actions.drop given.length :=
      (List.take_append_drop _ _).symm
    _ = given ++ engine.actions.drop given.length := by rw [first]

/-- One of the actions is kept when its turn has come. -/
theorem keeping_own (begins : engine.BeginsWith given) (turn : engine.resolved < given.length) :
    (engine.keeping [given[engine.resolved]]).BeginsWith given := by
  have first := begins.actions
  have few : engine.actions.length < given.length := by
    have count := congrArg List.length first
    rw [List.length_take, List.length_take] at count
    omega
  rw [List.take_of_length_le (Nat.le_of_lt few)] at first
  refine ⟨begins.registered, ?_⟩
  unfold keeping
  rw [List.take_of_length_le (by rw [List.length_append]; exact few), first,
    List.take_append_getElem turn]

/-- Behind the actions anything is kept. -/
theorem keeping_other (begins : engine.BeginsWith given) (past : given.length ≤ engine.resolved)
    (others : List Action) : (engine.keeping others).BeginsWith given := by
  have first := begins.actions
  rw [List.take_of_length_le past] at first
  have many : given.length ≤ engine.actions.length := by
    have count := congrArg List.length first
    rw [List.length_take] at count
    omega
  refine ⟨begins.registered, ?_⟩
  unfold keeping
  rw [List.take_append_of_le_length many, first,
    List.take_of_length_le (Nat.le_add_right_of_le past)]

end Engine.BeginsWith

/-- Whether the engine of a world keeps, on the way to another world, the actions that it begins
with and what it has resolved. -/
def World.KeepsFirst (given : List Action) (start last : World Memory) : Prop :=
  start.engine.BeginsWith given →
    last.engine.BeginsWith given ∧ start.engine.resolved ≤ last.engine.resolved

instance (given : List Action) : Std.Refl (α := World Memory) (World.KeepsFirst given) :=
  ⟨fun _ begins => ⟨begins, Nat.le_refl _⟩⟩

instance (given : List Action) : IsTrans (World Memory) (World.KeepsFirst given) where
  trans := by
    intro start next last before after begins
    obtain ⟨between, le⟩ := before begins
    obtain ⟨final, le'⟩ := after between
    exact ⟨final, Nat.le_trans le le'⟩

theorem World.Registers.keepsFirst {start last : World Memory} (registers : start.Registers last) :
    start.KeepsFirst given last := by
  intro begins
  obtain ⟨added, after⟩ := registers
  rw [after]
  exact ⟨⟨begins.registered.trans (List.prefix_append _ _), begins.actions⟩, Nat.le_refl _⟩

namespace Engine

variable {host : Host Memory}

theorem resolve_keepsFirst (keeps : host.KeepsTo (World.KeepsFirst given)) (fuel : Nat)
    (registration : Value) :
    Leads (World.KeepsFirst given) (List Action) (Registration.resolve host fuel registration) :=
  (Registration.resolve_is (sequential_leads (World.KeepsFirst given)) keeps.toQueriesAre
    (fun notice start => (registers_note notice start).keepsFirst) fuel).one registration

/-- What resolving the registration whose turn it is has come to is kept behind the actions that the
engine begins with. -/
theorem keeping_keepsFirst {fuel : Nat} {start : World Memory} {registration : Value}
    {actions : List Action} (keeps : host.KeepsTo (World.KeepsFirst given))
    (waiting : start.engine.registrations[start.engine.resolved]? = some registration)
    (resolved : (attempt host fuel start.engine.resolved registration start).result =
      .ok actions) :
    start.KeepsFirst given (afterKeeping
      (attempt host fuel start.engine.resolved registration start).last actions) := by
  intro begins
  by_cases turn : start.engine.resolved < given.length
  · obtain ⟨others, split⟩ := begins.registered
    rw [← split, List.getElem?_append_left (by rw [List.length_map]; exact turn),
      List.getElem?_map, List.getElem?_eq_getElem turn] at waiting
    obtain rfl := Option.some.inj waiting
    cases fuel with
    | zero => cases resolved
    | succ fuel =>
        obtain rfl := Except.ok.inj resolved
        exact ⟨begins.keeping_own turn, Nat.le_succ _⟩
  · obtain ⟨after, grown⟩ := resolve_keepsFirst keeps fuel registration start begins
    have past := Nat.le_trans (Nat.le_of_not_lt turn) grown
    exact ⟨after.keeping_other past actions, Nat.le_succ_of_le grown⟩

theorem Prepares.keepsFirst {fuel : Nat} {start : World Memory} {preparation : Preparation Memory}
    (prepares : Prepares host fuel start preparation)
    (keeps : host.KeepsTo (World.KeepsFirst given)) :
    start.KeepsFirst given preparation.world := by
  induction prepares with
  | cutOff world => exact Std.Refl.refl world
  | finished fuel all => exact Std.Refl.refl _
  | @failed fuel start registration failure waiting result =>
      exact resolve_keepsFirst keeps fuel registration start
  | kept waiting result _ ih =>
      exact IsTrans.trans _ _ _ (keeping_keepsFirst keeps waiting result) ih

theorem prepare_keepsFirst (keeps : host.KeepsTo (World.KeepsFirst given)) (fuel : Nat) :
    Leads (World.KeepsFirst given) (List Action) (prepare host fuel) := by
  intro start
  rw [prepare_run]
  exact (prepares_preparation host fuel start).keepsFirst keeps

/-- The actions that an engine begins with stand in front of all others once it has been
prepared. -/
theorem prepare_begins {fuel : Nat} {start last : World Memory} {actions : List Action}
    (keeps : host.KeepsTo (World.KeepsFirst given)) (begins : start.engine.BeginsWith given)
    (prepared : (prepare host fuel).run start = (.ok actions, last)) :
    ∃ others, actions = given ++ others := by
  obtain ⟨after, -⟩ := prepare_keepsFirst keeps fuel start begins
  rw [prepare_run] at prepared after
  obtain ⟨result, -⟩ := Prod.mk.inj prepared
  obtain ⟨rfl, all, -⟩ := (prepares_preparation host fuel start).succeeds result
  exact after.exists_append all

end Engine

namespace Run

variable {host : Host Memory}

/-- However an engine is used, it keeps the actions that it begins with. -/
theorem after_keepsFirst (keeps : host.KeepsTo (World.KeepsFirst given)) (row : List Use)
    (start : World Memory) : start.KeepsFirst given (start.after host row) :=
  after_leads keeps (fun _ _ registers _ => registers.keepsFirst)
    (Engine.prepare_keepsFirst keeps) row start

end Run

end LineScript
