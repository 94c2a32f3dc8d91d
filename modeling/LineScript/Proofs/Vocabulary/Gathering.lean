import LineScript.Proofs.Run.Parts
import LineScript.Proofs.Vocabulary.Flattening

/-!
# What an attempt gathers

Resolving a registration gathers its actions one after the other, and what it has gathered when it
fails is dropped. A later attempt that succeeds brings these actions again if the registration is
*renewable*, that is, if each of its functions and pending results stands for the same actions
whenever it answers. If the registration is *doomed*, no later attempt succeeds.
-/

namespace LineScript

variable {Memory : Type} {host : Host Memory} {Kept : Memory → Prop}

/-- Whether the memory stays of some kind from one world to another. -/
def World.Keeps (Kept : Memory → Prop) (start last : World Memory) : Prop :=
  Kept start.memory → Kept last.memory

instance (Kept : Memory → Prop) : Std.Refl (World.Keeps Kept) :=
  ⟨fun _ => id⟩

instance (Kept : Memory → Prop) : IsTrans (World Memory) (World.Keeps Kept) where
  trans _ _ _ first second := second ∘ first

namespace Registration

mutual

/-- The actions that resolving a registration has come to when it ends, whether it fails or not. -/
def gathered (host : Host Memory) : (fuel : Nat) → Value → World Memory → List Action
  | 0, _, _ => []
  | fuel + 1, registration, world =>
    match registration with
    | .pending id =>
      match (host.await id).run world with
      | (.ok value, world) => gathered host fuel value world
      | _ => []
    | .list items => gatheredAll host fuel items world
    | .tuple items => gatheredAll host fuel items world
    | .stream id false => gatheredStream host fuel id world
    | .stream id true =>
      match (drain host id fuel).run world with
      | (.ok items, world) => gatheredAll host fuel items world
      | _ => []
    | .callable function =>
      match (host.callGenerator function).run (world.noting (.invoking function)) with
      | (.ok value, world) => gathered host fuel value world
      | _ => []
    | leaf => ((resolve host (fuel + 1) leaf).run world).1.toOption.getD []

/-- The actions that resolving some registrations has come to when it ends. -/
def gatheredAll (host : Host Memory) : (fuel : Nat) → List Value → World Memory → List Action
  | 0, _, _ => []
  | _ + 1, [], _ => []
  | fuel + 1, registration :: others, world =>
    match (resolve host fuel registration).run world with
    | (.ok actions, world) => actions ++ gatheredAll host fuel others world
    | _ => gathered host fuel registration world

/-- The actions that resolving the items of a stream has come to when it ends. -/
def gatheredStream (host : Host Memory) : (fuel : Nat) → Nat → World Memory → List Action
  | 0, _, _ => []
  | fuel + 1, id, world =>
    match (host.next id).run world with
    | (.ok (some registration), world) =>
      match (resolve host fuel registration).run world with
      | (.ok actions, world) => actions ++ gatheredStream host fuel id world
      | _ => gathered host fuel registration world
    | _ => []

end

theorem gathered_of_isLeaf {value : Value} (leaf : value.isLeaf = true) (fuel : Nat)
    (world : World Memory) :
    gathered host (fuel + 1) value world =
      ((resolve host (fuel + 1) value).run world).1.toOption.getD [] := by
  cases value with
  | list items => cases leaf
  | tuple items => cases leaf
  | stream id asynchronous => cases leaf
  | pending id => cases leaf
  | callable function => cases leaf
  | _ => rfl

theorem resolve_callable_run (host : Host Memory) (fuel : Nat) (function : Callable)
    (world : World Memory) :
    (resolve host (fuel + 1) (.callable function)).run world =
      (host.callGenerator function >>= resolve host fuel).run
        (world.noting (.invoking function)) := rfl

/-- A sequence of computations fails if its rest fails whenever the first one has succeeded. -/
theorem isOk_run_bind_eq_false {α β : Type} {first : Query Memory α} {next : α → Query Memory β}
    {start : World Memory} (rest : ∀ value between, first.run start = (.ok value, between) →
      ((next value).run between).1.isOk = false) :
    ((first >>= next).run start).1.isOk = false := by
  rcases done : first.run start with ⟨failure | value, between⟩
  · rw [run_bind_of_error done]
    rfl
  · rw [run_bind_of_ok done]
    exact rest value between done

/-- A leaf that gives nothing fails wherever it is resolved, and nothing is gathered from it. -/
theorem exists_fault_of_refused {value : Value} (leaf : value.isLeaf = true)
    (refused : ∀ actions, ¬Gives value actions) (host : Host Memory) :
    ∃ fault, ∀ fuel world,
      (resolve host (fuel + 1) value).run world = (.error (.fault fault), world) ∧
        gathered host (fuel + 1) value world = [] := by
  obtain ⟨outcome, resolves, outcomes⟩ := exists_outcome_of_isLeaf leaf host
  cases outcome with
  | ok actions => exact absurd ((outcomes actions).mpr rfl) (refused actions)
  | error fault =>
      refine ⟨fault, fun fuel world => ⟨resolves fuel world, ?_⟩⟩
      rw [gathered_of_isLeaf leaf, resolves]
      rfl

/-- Whether resolving registrations gathers what it comes to. -/
structure GathersAll (host : Host Memory) (fuel : Nat) : Prop where
  one : ∀ registration start actions last,
    (resolve host fuel registration).run start = (.ok actions, last) →
    gathered host fuel registration start = actions
  all : ∀ registrations start actions last,
    (resolveAll host fuel registrations).run start = (.ok actions, last) →
    gatheredAll host fuel registrations start = actions
  stream : ∀ id start actions last,
    (resolveStream host fuel id).run start = (.ok actions, last) →
    gatheredStream host fuel id start = actions

/-- An attempt that succeeds has gathered what it comes to. -/
theorem gathersAll (host : Host Memory) (fuel : Nat) : GathersAll host fuel := by
  induction fuel with
  | zero => exact ⟨by rintro _ _ _ _ ⟨⟩, by rintro _ _ _ _ ⟨⟩, by rintro _ _ _ _ ⟨⟩⟩
  | succ fuel ih =>
      refine ⟨?_, ?_, ?_⟩
      · intro registration start actions last done
        cases registration with
        | pending id =>
            obtain ⟨value, between, awaited, rest⟩ := exists_of_run_bind done
            rw [gathered, awaited]
            exact ih.one value between actions last rest
        | list items => exact ih.all items start actions last done
        | tuple items => exact ih.all items start actions last done
        | stream id asynchronous =>
            cases asynchronous with
            | false => exact ih.stream id start actions last done
            | true =>
                obtain ⟨items, between, drained, rest⟩ := exists_of_run_bind done
                rw [gathered, drained]
                exact ih.all items between actions last rest
        | callable function =>
            rw [resolve_callable_run] at done
            obtain ⟨value, between, called, rest⟩ := exists_of_run_bind done
            rw [gathered, called]
            exact ih.one value between actions last rest
        | _ =>
            rw [gathered_of_isLeaf rfl, done]
            rfl
      · intro registrations start actions last done
        cases registrations with
        | nil =>
            cases done
            rfl
        | cons registration others =>
            obtain ⟨first, between, own, rest⟩ := exists_of_run_bind done
            obtain ⟨more, final, later, finish⟩ := exists_of_run_bind rest
            cases finish
            rw [gatheredAll, own]
            exact congrArg _ (ih.all others between more _ later)
      · intro id start actions last done
        obtain ⟨drawn, next, drew, continued⟩ := exists_of_run_bind done
        cases drawn with
        | none =>
            cases continued
            rw [gatheredStream, drew]
        | some registration =>
            obtain ⟨first, between, own, rest⟩ := exists_of_run_bind continued
            obtain ⟨more, final, later, finish⟩ := exists_of_run_bind rest
            cases finish
            rw [gatheredStream, drew]
            simp only []
            rw [own]
            exact congrArg _ (ih.stream id between more _ later)

/-- Whether resolving a registration in a world goes through some actions: what it gathers begins
them, and if it succeeds it comes to all of them. -/
structure Offers (host : Host Memory) (start : World Memory) (registration : Value)
    (row : List Action) : Prop where
  gathers : ∀ fuel, gathered host fuel registration start <+: row
  comes : ∀ fuel actions last, (resolve host fuel registration).run start = (.ok actions, last) →
    actions = row

/-- Whether a registration stands for the same actions whenever it is resolved. Besides leaves it is
made of lists, and of pending results and functions that may fail, but answer each time with what
stands for these actions. -/
inductive Renewable (host : Host Memory) (Kept : Memory → Prop) : Value → List Action → Prop where
  | leaf {value : Value} {row : List Action} : value.isLeaf = true →
      (∀ actions, Gives value actions → actions = row) → Renewable host Kept value row
  | list {items : List Value} {rows : Value → List Action} :
      (∀ item ∈ items, Renewable host Kept item (rows item)) →
      Renewable host Kept (.list items) (items.flatMap rows)
  | tuple {items : List Value} {rows : Value → List Action} :
      (∀ item ∈ items, Renewable host Kept item (rows item)) →
      Renewable host Kept (.tuple items) (items.flatMap rows)
  | pending {id : Nat} {row : List Action} :
      (∀ start value last, Kept start.memory → (host.await id).run start = (.ok value, last) →
        Offers host last value row) →
      Renewable host Kept (.pending id) row
  | callable {function : Callable} {row : List Action} :
      (∀ start value last, Kept start.memory →
        (host.callGenerator function).run start = (.ok value, last) →
        Offers host last value row) →
      Renewable host Kept (.callable function) row

/-- Whether a registration cannot be resolved, whenever this is tried. It is a leaf that gives
nothing, a list that holds such a registration, or a pending result or a function that does not
answer with what can be resolved. -/
inductive Doomed (host : Host Memory) (Kept : Memory → Prop) : Value → Prop where
  | leaf {value : Value} : value.isLeaf = true → (∀ actions, ¬Gives value actions) →
      Doomed host Kept value
  | list {items : List Value} {item : Value} : item ∈ items → Doomed host Kept item →
      Doomed host Kept (.list items)
  | tuple {items : List Value} {item : Value} : item ∈ items → Doomed host Kept item →
      Doomed host Kept (.tuple items)
  | pending {id : Nat} :
      (∀ start value last, Kept start.memory → (host.await id).run start = (.ok value, last) →
        ∀ fuel, ((resolve host fuel value).run last).1.isOk = false) →
      Doomed host Kept (.pending id)
  | callable {function : Callable} :
      (∀ start value last, Kept start.memory →
        (host.callGenerator function).run start = (.ok value, last) →
        ∀ fuel, ((resolve host fuel value).run last).1.isOk = false) →
      Doomed host Kept (.callable function)

theorem Offers.of_succ {start : World Memory} {registration : Value} {row : List Action}
    (gathers : ∀ fuel, gathered host (fuel + 1) registration start <+: row)
    (comes : ∀ fuel actions last,
      (resolve host (fuel + 1) registration).run start = (.ok actions, last) → actions = row) :
    Offers host start registration row := by
  refine ⟨?_, ?_⟩
  · rintro (_ | fuel)
    · exact List.nil_prefix
    · exact gathers fuel
  · rintro (_ | fuel) actions last done
    · cases done
    · exact comes fuel actions last done

theorem isOk_eq_false_of_succ {registration : Value} {world : World Memory}
    (fails : ∀ fuel, ((resolve host (fuel + 1) registration).run world).1.isOk = false)
    (fuel : Nat) : ((resolve host fuel registration).run world).1.isOk = false := by
  cases fuel with
  | zero => rfl
  | succ fuel => exact fails fuel

theorem leaf_offers {value : Value} (leaf : value.isLeaf = true) {row : List Action}
    (gives : ∀ actions, Gives value actions → actions = row) (world : World Memory) :
    Offers host world value row := by
  obtain ⟨outcome, resolves, outcomes⟩ := exists_outcome_of_isLeaf leaf host
  refine .of_succ (fun fuel => ?_) fun fuel actions last done => ?_
  · rw [gathered_of_isLeaf leaf, resolves]
    cases outcome with
    | error fault => exact List.nil_prefix
    | ok actions =>
        obtain rfl := gives actions ((outcomes actions).mpr rfl)
        exact List.prefix_refl _
  · rw [resolves] at done
    cases outcome with
    | error fault => cases done
    | ok given =>
        cases done
        exact gives _ ((outcomes _).mpr rfl)

section Keeping

variable (keeps : host.QueriesAre (Leads (World.Keeps Kept)))

include keeps

theorem resolve_keeps (fuel : Nat) (registration : Value) :
    Leads (World.Keeps Kept) (List Action) (resolve host fuel registration) :=
  (resolve_is (sequential_leads _) keeps (fun _ _ => id) fuel).one registration

/-- Registrations that offer their actions whenever they are resolved do so one after the other. -/
theorem all_offer {items : List Value} {rows : Value → List Action}
    (offers : ∀ item ∈ items, ∀ world : World Memory, Kept world.memory →
      Offers host world item (rows item)) (fuel : Nat) {world : World Memory}
    (kept : Kept world.memory) :
    gatheredAll host fuel items world <+: items.flatMap rows ∧
      ∀ actions last, (resolveAll host fuel items).run world = (.ok actions, last) →
        actions = items.flatMap rows := by
  induction fuel generalizing items world with
  | zero => exact ⟨List.nil_prefix, by rintro _ _ ⟨⟩⟩
  | succ fuel ih =>
      cases items with
      | nil => exact ⟨List.nil_prefix, by rintro _ _ ⟨⟩; rfl⟩
      | cons item items =>
          obtain ⟨own, rest⟩ := List.forall_mem_cons.mp offers
          have after := resolve_keeps keeps fuel item world kept
          obtain ⟨gathers, comes⟩ := own world kept
          rw [gatheredAll, resolveAll, List.flatMap_cons]
          rcases resolved : (resolve host fuel item).run world with ⟨failure | first, between⟩
          · refine ⟨(gathers fuel).trans (List.prefix_append _ _), ?_⟩
            rw [run_bind_of_error resolved]
            rintro _ _ ⟨⟩
          · rw [resolved] at after
            obtain rfl := comes fuel first between resolved
            obtain ⟨further, whole⟩ := ih rest after
            refine ⟨(List.prefix_append_right_inj _).mpr further, ?_⟩
            intro actions last done
            rw [run_bind_of_ok resolved] at done
            obtain ⟨more, final, later, finish⟩ := exists_of_run_bind done
            cases finish
            rw [whole more _ later]

/-- A renewable registration offers its actions whenever it is resolved. -/
theorem Renewable.offers {registration : Value} {row : List Action}
    (renewable : Renewable host Kept registration row) {world : World Memory}
    (kept : Kept world.memory) : Offers host world registration row := by
  induction renewable generalizing world with
  | leaf leaf gives => exact leaf_offers leaf gives world
  | list _ ih =>
      have all (fuel : Nat) :=
        all_offer keeps (fun item member world kept => ih item member kept) fuel kept
      exact .of_succ (fun fuel => (all fuel).1) fun fuel => (all fuel).2
  | tuple _ ih =>
      have all (fuel : Nat) :=
        all_offer keeps (fun item member world kept => ih item member kept) fuel kept
      exact .of_succ (fun fuel => (all fuel).1) fun fuel => (all fuel).2
  | @pending id row answers =>
      refine .of_succ (fun fuel => ?_) fun fuel actions last done => ?_
      · rw [gathered]
        rcases awaited : (host.await id).run world with ⟨failure | value, between⟩
        · exact List.nil_prefix
        · exact (answers world value between kept awaited).gathers fuel
      · obtain ⟨value, between, awaited, rest⟩ := exists_of_run_bind done
        exact (answers world value between kept awaited).comes fuel actions last rest
  | @callable function row answers =>
      have answers := answers (world.noting (.invoking function))
      refine .of_succ (fun fuel => ?_) fun fuel actions last done => ?_
      · rw [gathered]
        rcases called : (host.callGenerator function).run
          (world.noting (.invoking function)) with ⟨failure | value, between⟩
        · exact List.nil_prefix
        · exact (answers value between kept called).gathers fuel
      · rw [resolve_callable_run] at done
        obtain ⟨value, between, called, rest⟩ := exists_of_run_bind done
        exact (answers value between kept called).comes fuel actions last rest

/-- A list that holds a registration which cannot be resolved cannot be resolved. -/
theorem resolveAll_isOk_eq_false {items : List Value} {item : Value} (member : item ∈ items)
    (doomed : ∀ (world : World Memory), Kept world.memory → ∀ fuel,
      ((resolve host fuel item).run world).1.isOk = false) (fuel : Nat) {world : World Memory}
    (kept : Kept world.memory) : ((resolveAll host fuel items).run world).1.isOk = false := by
  induction fuel generalizing items world with
  | zero => rfl
  | succ fuel ih =>
      cases items with
      | nil => cases member
      | cons first items =>
          refine isOk_run_bind_eq_false fun actions between resolved => ?_
          have after := resolve_keeps keeps fuel first world kept
          rw [resolved] at after
          rcases List.mem_cons.mp member with rfl | later
          · have failed := doomed world kept fuel
            rw [resolved] at failed
            cases failed
          · refine isOk_run_bind_eq_false fun more last rest => ?_
            have failed := ih later after
            rw [rest] at failed
            cases failed

/-- A doomed registration cannot be resolved, whenever this is tried. -/
theorem Doomed.isOk_eq_false {registration : Value} (doomed : Doomed host Kept registration)
    {world : World Memory} (kept : Kept world.memory) (fuel : Nat) :
    ((resolve host fuel registration).run world).1.isOk = false := by
  induction doomed generalizing world fuel with
  | leaf leaf none =>
      obtain ⟨fault, fails⟩ := exists_fault_of_refused leaf none host
      apply isOk_eq_false_of_succ
      intro fuel
      rw [(fails fuel world).1]
      rfl
  | list member _ ih =>
      apply isOk_eq_false_of_succ
      exact fun fuel => resolveAll_isOk_eq_false keeps member (fun _ => ih) fuel kept
  | tuple member _ ih =>
      apply isOk_eq_false_of_succ
      exact fun fuel => resolveAll_isOk_eq_false keeps member (fun _ => ih) fuel kept
  | pending answers =>
      apply isOk_eq_false_of_succ
      intro fuel
      apply isOk_run_bind_eq_false
      exact fun value last awaited => answers world value last kept awaited fuel
  | @callable function answers =>
      apply isOk_eq_false_of_succ
      intro fuel
      rw [resolve_callable_run]
      apply isOk_run_bind_eq_false
      exact fun value last called =>
        answers (world.noting (.invoking function)) value last kept called fuel

end Keeping

end Registration

end LineScript
