import LineScript.Proofs.Session.Evaluation
import LineScript.Vocabulary.Registration
import Mathlib.Data.List.Forall2

/-!
# Flattening registrations

Whatever lists, streams, pending results and functions a registration is made of, it *unfolds* to a
tree when these are used from left to right, and the leaves of the tree alone decide what it stands
for: the actions that they give, one leaf after the other, or a fault if a leaf gives none
(`LineScript.Registration.flattens_of_unfolds`). Each function of the tree is called once
(`LineScript.Registration.Unfolds.records`).
-/

namespace LineScript

/-- Whether a value is no list, tuple, stream or pending result, and no function. -/
def Value.isLeaf : Value → Bool
  | .list _ => false
  | .tuple _ => false
  | .stream .. => false
  | .pending _ => false
  | .callable _ => false
  | _ => true

namespace Registration

/-- What a registration is made of: lists, tuples and streams of registrations, pending results that
are registrations, functions that return one, and leaves. -/
inductive Tree where
  | leaf (value : Value)
  | list (items : List Tree)
  | tuple (items : List Tree)
  | stream (asynchronous : Bool) (items : List Tree)
  | pending (result : Tree)
  | call (name : String) (result : Tree)

mutual

/-- The leaves of a tree, from left to right. -/
def Tree.leaves : Tree → List Value
  | .leaf value => [value]
  | .list items => leavesOf items
  | .tuple items => leavesOf items
  | .stream _ items => leavesOf items
  | .pending result => result.leaves
  | .call _ result => result.leaves

/-- The leaves of some trees, from left to right. -/
def leavesOf : List Tree → List Value
  | [] => []
  | tree :: others => tree.leaves ++ leavesOf others

end

mutual

/-- The names of the functions of a tree, in the order in which they are called. -/
def Tree.calls : Tree → List String
  | .leaf _ => []
  | .list items => callsOf items
  | .tuple items => callsOf items
  | .stream _ items => callsOf items
  | .pending result => result.calls
  | .call name result => name :: result.calls

/-- The names of the functions of some trees, in the order in which they are called. -/
def callsOf : List Tree → List String
  | [] => []
  | tree :: others => tree.calls ++ callsOf others

end

/-- Whether a leaf gives some actions: an action gives itself, a record one action, and any other
mapping one for each key. -/
inductive Gives : Value → List Action → Prop where
  | action (action : Action) : Gives (.action action) [action]
  | record {value matcher handler options : Value} {action : Action} :
      record? value = some (matcher, handler, options) →
      Action.make matcher handler options [] = .ok action → Gives value [action]
  | mapping {entries : List (Value × Value)} {actions : List Action} :
      record? (.dict entries) = none →
      List.Forall₂ (fun entry action => Action.make entry.1 entry.2 .null [] = .ok action)
        entries actions →
      Gives (.dict entries) actions

variable {Memory : Type} {host : Host Memory}

/-- Whether a computation has a result and leaves a world, if it has enough fuel. -/
def Settles {α : Type} (computation : Nat → Query Memory α) (start : World Memory)
    (result : Except Failure α) (last : World Memory) : Prop :=
  ∃ enough, ∀ fuel, enough ≤ fuel → (computation fuel).run start = (result, last)

/-- Whether a computation comes to what some leaves give: their actions, one leaf after the other,
or a fault if one of them gives none. -/
structure Flattens (computation : Nat → Query Memory (List Action)) (leaves : List Value)
    (start last : World Memory) : Prop where
  given : ∀ rows, List.Forall₂ Gives leaves rows →
    Settles computation start (.ok rows.flatten) last
  refused : ∀ leaf ∈ leaves, (∀ actions, ¬Gives leaf actions) →
    ∃ fault place, Settles computation start (.error (.fault fault)) place

theorem mapM_ofExcept_run {α β : Type} (check : α → Except Fault β) (items : List α)
    (world : World Memory) :
    (items.mapM fun item => (Query.ofExcept (check item) : Query Memory β)).run world =
      ((items.mapM check).mapError .fault, world) := by
  induction items with
  | nil => rfl
  | cons item items ih =>
      rw [List.mapM_cons, List.mapM_cons]
      cases checked : check item with
      | error fault => rfl
      | ok value =>
          have first : (Query.ofExcept (.ok value) : Query Memory β).run world =
              (.ok value, world) := rfl
          rw [run_bind_of_ok first]
          cases rest : items.mapM check with
          | error fault =>
              rw [rest] at ih
              rw [run_bind_of_error ih]
              rfl
          | ok values =>
              rw [rest] at ih
              rw [run_bind_of_ok ih]
              rfl

theorem mapM_eq_ok_iff {α β : Type} {check : α → Except Fault β} {items : List α}
    {values : List β} :
    items.mapM check = .ok values ↔
      List.Forall₂ (fun item value => check item = .ok value) items values := by
  induction items generalizing values with
  | nil =>
      rw [List.mapM_nil, List.forall₂_nil_left_iff]
      constructor
      · intro same
        exact (Except.ok.inj same).symm
      · rintro rfl
        rfl
  | cons item items ih =>
      rw [List.mapM_cons, List.forall₂_cons_left_iff]
      constructor
      · intro made
        cases checked : check item with
        | error fault =>
            rw [checked] at made
            cases made
        | ok value =>
            rw [checked] at made
            cases rest : items.mapM check with
            | error fault =>
                rw [rest] at made
                cases made
            | ok others =>
                rw [rest] at made
                obtain rfl := Except.ok.inj made
                exact ⟨value, others, rfl, ih.mp rest, rfl⟩
      · rintro ⟨value, others, checked, rest, rfl⟩
        rw [checked, ih.mpr rest]
        rfl

theorem resolve_of_record {value matcher handler options : Value}
    (record : record? value = some (matcher, handler, options)) (host : Host Memory) (fuel : Nat) :
    resolve host (fuel + 1) value = do
      return [← Query.ofExcept (Action.make matcher handler options [])] := by
  cases value with
  | dict entries => simp only [resolve, record]
  | object fields => simp only [resolve, record]
  | options settings => simp only [resolve, record]
  | _ => cases record

theorem resolve_of_mapping {entries : List (Value × Value)}
    (other : record? (.dict entries) = none) (host : Host Memory) (fuel : Nat) :
    resolve host (fuel + 1) (.dict entries) =
      entries.mapM fun entry => Query.ofExcept (Action.make entry.1 entry.2 .null []) := by
  simp only [resolve, other]

theorem resolve_of_other {value : Value} (leaf : value.isLeaf = true)
    (action : ∀ action, value ≠ .action action) (mapping : ∀ entries, value ≠ .dict entries)
    (record : record? value = none) (host : Host Memory) (fuel : Nat) :
    resolve host (fuel + 1) value = Query.fail (.script (.invalidRegistration value.kind)) := by
  cases value with
  | list items => cases leaf
  | tuple items => cases leaf
  | stream id asynchronous => cases leaf
  | pending id => cases leaf
  | callable function => cases leaf
  | action own => exact absurd rfl (action own)
  | dict entries => exact absurd rfl (mapping entries)
  | _ => simp only [resolve, record]

/-- What resolving a leaf comes to. -/
theorem exists_outcome_of_isLeaf {value : Value} (leaf : value.isLeaf = true)
    (host : Host Memory) :
    ∃ outcome : Except Fault (List Action),
      (∀ fuel world, (resolve host (fuel + 1) value).run world =
        (outcome.mapError .fault, world)) ∧
      ∀ actions, Gives value actions ↔ outcome = .ok actions := by
  cases record : record? value with
  | some parts =>
      obtain ⟨matcher, handler, options⟩ := parts
      refine ⟨(Action.make matcher handler options []).map fun action => [action], ?_, ?_⟩
      · intro fuel world
        rw [resolve_of_record record]
        cases Action.make matcher handler options [] <;> rfl
      · intro actions
        constructor
        · rintro (_ | ⟨same, made⟩ | ⟨none, _⟩)
          · cases record
          · rw [record] at same
            cases same
            rw [made]
            rfl
          · rw [record] at none
            cases none
        · intro made
          cases action : Action.make matcher handler options [] with
          | error fault =>
              rw [action] at made
              cases made
          | ok own =>
              rw [action] at made
              obtain rfl := Except.ok.inj made
              exact .record record action
  | none =>
      by_cases action : ∃ action, value = .action action
      · obtain ⟨action, rfl⟩ := action
        refine ⟨.ok [action], fun _ _ => rfl, fun actions => ?_⟩
        constructor
        · rintro (_ | ⟨same, -⟩)
          · rfl
          · cases same
        · rintro ⟨⟩
          exact .action action
      · by_cases mapping : ∃ entries, value = .dict entries
        · obtain ⟨entries, rfl⟩ := mapping
          refine ⟨entries.mapM fun entry => Action.make entry.1 entry.2 .null [], ?_, ?_⟩
          · intro fuel world
            rw [resolve_of_mapping record]
            exact mapM_ofExcept_run _ entries world
          · intro actions
            rw [mapM_eq_ok_iff]
            constructor
            · rintro (_ | ⟨same, -⟩ | ⟨-, made⟩)
              · rw [record] at same
                cases same
              · exact made
            · exact .mapping record
        · refine ⟨.error (.script (.invalidRegistration value.kind)), ?_, ?_⟩
          · intro fuel world
            rw [resolve_of_other leaf (fun own same => action ⟨own, same⟩)
              (fun own same => mapping ⟨own, same⟩) record]
            rfl
          · intro actions
            constructor
            · rintro (_ | ⟨same, -⟩ | _)
              · exact absurd ⟨_, rfl⟩ action
              · rw [record] at same
                cases same
              · exact absurd ⟨_, rfl⟩ mapping
            · rintro ⟨⟩

theorem exists_of_forall₂_append {α β : Type} {R : α → β → Prop} {front back : List α}
    {rows : List β} (all : List.Forall₂ R (front ++ back) rows) :
    ∃ first second, rows = first ++ second ∧ List.Forall₂ R front first ∧
      List.Forall₂ R back second := by
  refine ⟨rows.take front.length, rows.drop front.length, (List.take_append_drop _ _).symm,
    ?_, ?_⟩
  · have own := List.forall₂_take front.length all
    rw [List.take_left] at own
    exact own
  · have rest := List.forall₂_drop front.length all
    rw [List.drop_left] at rest
    exact rest

/-- Leaves give actions one by one, unless one of them gives none. -/
theorem gives_or_refused (leaves : List Value) :
    (∃ rows, List.Forall₂ Gives leaves rows) ∨ ∃ leaf ∈ leaves, ∀ actions, ¬Gives leaf actions := by
  induction leaves with
  | nil => exact Or.inl ⟨[], .nil⟩
  | cons leaf leaves ih =>
      by_cases own : ∃ actions, Gives leaf actions
      · obtain ⟨actions, gives⟩ := own
        rcases ih with ⟨rows, rest⟩ | ⟨other, member, none⟩
        · exact Or.inl ⟨actions :: rows, .cons gives rest⟩
        · exact Or.inr ⟨other, List.mem_cons_of_mem leaf member, none⟩
      · exact Or.inr ⟨leaf, List.mem_cons_self, fun actions gives => own ⟨actions, gives⟩⟩

section Combinators

variable {computation first second : Nat → Query Memory (List Action)} {leaves others : List Value}
  {start between last : World Memory}

/-- A computation that goes on as another one does, with one unit of fuel less. -/
theorem Settles.step {α : Type} {next computation : Nat → Query Memory α}
    {result : Except Failure α}
    (same : ∃ enough, ∀ fuel, enough ≤ fuel →
      (next (fuel + 1)).run start = (computation fuel).run between)
    (settles : Settles computation between result last) : Settles next start result last := by
  obtain ⟨one, same⟩ := same
  obtain ⟨two, settled⟩ := settles
  refine ⟨max one two + 1, fun fuel enough => ?_⟩
  obtain ⟨fuel, rfl⟩ : ∃ less, fuel = less + 1 := ⟨fuel - 1, by omega⟩
  rw [same fuel (by omega), settled fuel (by omega)]

theorem Flattens.step {next : Nat → Query Memory (List Action)}
    (same : ∃ enough, ∀ fuel, enough ≤ fuel →
      (next (fuel + 1)).run start = (computation fuel).run between)
    (flattens : Flattens computation leaves between last) : Flattens next leaves start last := by
  refine ⟨fun rows gives => (flattens.given rows gives).step same, ?_⟩
  intro leaf member none
  obtain ⟨fault, place, settles⟩ := flattens.refused leaf member none
  exact ⟨fault, place, settles.step same⟩

theorem Flattens.nil (computes : ∀ fuel, (computation (fuel + 1)).run start = (.ok [], last)) :
    Flattens computation [] start last := by
  refine ⟨fun rows gives => ?_, fun leaf member => nomatch member⟩
  cases gives
  refine ⟨1, fun fuel enough => ?_⟩
  obtain ⟨fuel, rfl⟩ : ∃ less, fuel = less + 1 := ⟨fuel - 1, by omega⟩
  exact computes fuel

/-- Two computations one after the other, when each comes to what some leaves give. -/
theorem Flattens.append (one : Flattens first leaves start between)
    (two : Flattens second others between last) :
    Flattens (fun fuel => do
      let actions ← first fuel
      return actions ++ (← second fuel)) (leaves ++ others) start last := by
  have behind {rows : List (List Action)} {result : Except Failure (List Action)}
      {place : World Memory} (gives : List.Forall₂ Gives leaves rows)
      (rest : Settles second between result place) :
      Settles (fun fuel => do
        let actions ← first fuel
        return actions ++ (← second fuel)) start (result.map (rows.flatten ++ ·)) place := by
    obtain ⟨enough, settled⟩ := one.given rows gives
    obtain ⟨enough', settled'⟩ := rest
    refine ⟨max enough enough', fun fuel large => ?_⟩
    rw [run_bind_of_ok (settled fuel (by omega))]
    have later := settled' fuel (by omega)
    cases result with
    | error failure => rw [run_bind_of_error later]; rfl
    | ok actions => rw [run_bind_of_ok later]; rfl
  constructor
  · intro rows gives
    obtain ⟨own, rest, rfl, front, back⟩ := exists_of_forall₂_append gives
    rw [List.flatten_append]
    exact behind front (two.given rest back)
  · -- If a leaf of the first computation gives nothing, the second one does not start.
    have early (leaf : Value) (member : leaf ∈ leaves) (none : ∀ actions, ¬Gives leaf actions) :
        ∃ fault place, Settles (fun fuel => do
          let actions ← first fuel
          return actions ++ (← second fuel)) start (.error (.fault fault)) place := by
      obtain ⟨fault, place, enough, settled⟩ := one.refused leaf member none
      exact ⟨fault, place, enough, fun fuel large => run_bind_of_error (settled fuel large)⟩
    intro leaf member none
    rcases List.mem_append.mp member with own | rest
    · exact early leaf own none
    · rcases gives_or_refused leaves with ⟨rows, gives⟩ | ⟨other, own, refused⟩
      · obtain ⟨fault, place, settles⟩ := two.refused leaf rest none
        exact ⟨fault, place, behind gives settles⟩
      · exact early other own refused

end Combinators

theorem flattens_leaf {value : Value} (leaf : value.isLeaf = true) (world : World Memory) :
    Flattens (fun fuel => resolve host fuel value) [value] world world := by
  obtain ⟨outcome, resolves, gives⟩ := exists_outcome_of_isLeaf leaf host
  have settles : Settles (fun fuel => resolve host fuel value) world
      (outcome.mapError .fault) world := by
    refine ⟨1, fun fuel enough => ?_⟩
    obtain ⟨fuel, rfl⟩ : ∃ less, fuel = less + 1 := ⟨fuel - 1, by omega⟩
    exact resolves fuel world
  constructor
  · intro rows all
    obtain ⟨actions, rest, own, none, rfl⟩ := List.forall₂_cons_left_iff.mp all
    cases none
    rw [(gives actions).mp own] at settles
    rw [List.flatten_singleton]
    exact settles
  · intro other member none
    obtain rfl := List.mem_singleton.mp member
    cases outcome with
    | error fault => exact ⟨fault, world, settles⟩
    | ok actions => exact absurd ((gives actions).mpr rfl) (none actions)

/-- Whether a stream yields some items, and then ends. -/
inductive Draws (host : Host Memory) (id : Nat) :
    World Memory → List Value → World Memory → Prop where
  | finish {start last : World Memory} :
      (host.next id).run start = (.ok none, last) → Draws host id start [] last
  | draw {start next last : World Memory} {item : Value} {items : List Value} :
      (host.next id).run start = (.ok (some item), next) → Draws host id next items last →
      Draws host id start (item :: items) last

mutual

/-- Whether a registration turns out to be a tree when the results that it refers to are awaited,
its streams are drawn from and its functions are called, from left to right. A plain stream is drawn
from when what it has yielded before has been used, an asynchronous one is drawn empty first. -/
inductive Unfolds (host : Host Memory) : World Memory → Value → Tree → World Memory → Prop where
  | leaf (world : World Memory) {value : Value} : value.isLeaf = true →
      Unfolds host world value (.leaf value) world
  | list {start last : World Memory} {items : List Value} {trees : List Tree} :
      UnfoldsAll host start items trees last →
      Unfolds host start (.list items) (.list trees) last
  | tuple {start last : World Memory} {items : List Value} {trees : List Tree} :
      UnfoldsAll host start items trees last →
      Unfolds host start (.tuple items) (.tuple trees) last
  | stream {start last : World Memory} {id : Nat} {trees : List Tree} :
      UnfoldsDrawn host start id trees last →
      Unfolds host start (.stream id false) (.stream false trees) last
  | asynchronous {start next last : World Memory} {id : Nat} {items : List Value}
      {trees : List Tree} :
      Draws host id start items next → UnfoldsAll host next items trees last →
      Unfolds host start (.stream id true) (.stream true trees) last
  | pending {start next last : World Memory} {id : Nat} {value : Value} {tree : Tree} :
      (host.await id).run start = (.ok value, next) → Unfolds host next value tree last →
      Unfolds host start (.pending id) (.pending tree) last
  | call {start next last : World Memory} {function : Callable} {value : Value} {tree : Tree} :
      (host.callGenerator function).run (start.noting (.invoking function)) = (.ok value, next) →
      Unfolds host next value tree last →
      Unfolds host start (.callable function) (.call function.name tree) last

/-- Whether some registrations turn out to be some trees. -/
inductive UnfoldsAll (host : Host Memory) :
    World Memory → List Value → List Tree → World Memory → Prop where
  | nil (world : World Memory) : UnfoldsAll host world [] [] world
  | cons {start next last : World Memory} {value : Value} {values : List Value} {tree : Tree}
      {trees : List Tree} :
      Unfolds host start value tree next → UnfoldsAll host next values trees last →
      UnfoldsAll host start (value :: values) (tree :: trees) last

/-- Whether what a stream yields turns out to be some trees. -/
inductive UnfoldsDrawn (host : Host Memory) :
    World Memory → Nat → List Tree → World Memory → Prop where
  | finish {start last : World Memory} {id : Nat} :
      (host.next id).run start = (.ok none, last) → UnfoldsDrawn host start id [] last
  | draw {start between next last : World Memory} {id : Nat} {value : Value} {tree : Tree}
      {trees : List Tree} :
      (host.next id).run start = (.ok (some value), between) →
      Unfolds host between value tree next → UnfoldsDrawn host next id trees last →
      UnfoldsDrawn host start id (tree :: trees) last

end

theorem Draws.settles {id : Nat} {start last : World Memory} {items : List Value}
    (draws : Draws host id start items last) :
    Settles (drain host id) start (.ok items) last := by
  induction draws with
  | finish ended =>
      refine ⟨1, fun fuel enough => ?_⟩
      obtain ⟨fuel, rfl⟩ : ∃ less, fuel = less + 1 := ⟨fuel - 1, by omega⟩
      rw [drain, run_bind_of_ok ended]
      rfl
  | draw yielded _ ih =>
      obtain ⟨enough, settled⟩ := ih
      refine ⟨enough + 1, fun fuel large => ?_⟩
      obtain ⟨fuel, rfl⟩ : ∃ less, fuel = less + 1 := ⟨fuel - 1, by omega⟩
      rw [drain, run_bind_of_ok yielded]
      simp only []
      rw [run_bind_of_ok (settled fuel (by omega))]
      rfl

mutual

/-- A registration comes to what the leaves of its tree give, whatever else it is made of. -/
theorem flattens_of_unfolds (tree : Tree) {value : Value} {start last : World Memory}
    (unfolds : Unfolds host start value tree last) :
    Flattens (fun fuel => resolve host fuel value) tree.leaves start last := by
  cases unfolds with
  | leaf _ leaf => exact flattens_leaf leaf start
  | list all => exact (flattens_of_unfoldsAll _ all).step ⟨0, fun _ _ => rfl⟩
  | tuple all => exact (flattens_of_unfoldsAll _ all).step ⟨0, fun _ _ => rfl⟩
  | stream drawn => exact (flattens_of_unfoldsDrawn _ drawn).step ⟨0, fun _ _ => rfl⟩
  | asynchronous draws all =>
      obtain ⟨enough, settled⟩ := draws.settles
      refine (flattens_of_unfoldsAll _ all).step ⟨enough, fun fuel large => ?_⟩
      exact run_bind_of_ok (settled fuel large)
  | pending awaited result =>
      exact (flattens_of_unfolds _ result).step ⟨0, fun _ _ => run_bind_of_ok awaited⟩
  | call called result =>
      refine (flattens_of_unfolds _ result).step ⟨0, fun fuel _ => ?_⟩
      change ((Query.note _ : Query Memory Unit) >>= fun _ => _ >>= _).run start = _
      rw [run_bind_of_ok (Query.run_note _ start), run_bind_of_ok called]

theorem flattens_of_unfoldsAll (trees : List Tree) {values : List Value}
    {start last : World Memory} (unfolds : UnfoldsAll host start values trees last) :
    Flattens (fun fuel => resolveAll host fuel values) (leavesOf trees) start last := by
  cases unfolds with
  | nil => exact .nil fun _ => rfl
  | cons own rest =>
      exact ((flattens_of_unfolds _ own).append (flattens_of_unfoldsAll _ rest)).step
        ⟨0, fun _ _ => rfl⟩

theorem flattens_of_unfoldsDrawn (trees : List Tree) {id : Nat} {start last : World Memory}
    (unfolds : UnfoldsDrawn host start id trees last) :
    Flattens (fun fuel => resolveStream host fuel id) (leavesOf trees) start last := by
  cases unfolds with
  | finish ended =>
      refine .nil fun fuel => ?_
      rw [resolveStream, run_bind_of_ok ended]
      rfl
  | draw yielded own rest =>
      refine ((flattens_of_unfolds _ own).append (flattens_of_unfoldsDrawn _ rest)).step
        ⟨0, fun fuel _ => ?_⟩
      rw [resolveStream, run_bind_of_ok yielded]

end

/-- Whether a record of a host names the functions that are called for their registrations, in the
order of the calls. -/
structure Records (host : Host Memory) (record : World Memory → List String) : Prop where
  callGenerator : ∀ function world,
    record ((host.callGenerator function).run world).2 = record world ++ [function.name]
  await : ∀ id world, record ((host.await id).run world).2 = record world
  next : ∀ id world, record ((host.next id).run world).2 = record world
  note : ∀ notice world, record (world.noting notice) = record world

section Records

variable {record : World Memory → List String}

theorem Draws.records (records : Records host record) {id : Nat} {start last : World Memory}
    {items : List Value} (draws : Draws host id start items last) :
    record last = record start := by
  induction draws with
  | @finish start _ ended =>
      have same := records.next id start
      rw [ended] at same
      exact same
  | @draw start _ _ _ _ yielded _ ih =>
      have same := records.next id start
      rw [yielded] at same
      exact ih.trans same

mutual

/-- Each function of a registration is called once, in order. -/
theorem Unfolds.records (records : Records host record) (tree : Tree) {value : Value}
    {start last : World Memory} (unfolds : Unfolds host start value tree last) :
    record last = record start ++ tree.calls := by
  cases unfolds with
  | leaf _ _ => exact (List.append_nil _).symm
  | list all => exact UnfoldsAll.records records _ all
  | tuple all => exact UnfoldsAll.records records _ all
  | stream drawn => exact UnfoldsDrawn.records records _ drawn
  | asynchronous draws all =>
      rw [← draws.records records]
      exact UnfoldsAll.records records _ all
  | @pending _ _ _ id _ _ awaited result =>
      have same := records.await id start
      rw [awaited] at same
      exact (Unfolds.records records _ result).trans (congrArg (· ++ _) same)
  | @call _ _ _ function _ _ called result =>
      have grown := records.callGenerator function (start.noting (.invoking function))
      rw [called, records.note] at grown
      rw [Unfolds.records records _ result, grown, List.append_assoc]
      rfl

theorem UnfoldsAll.records (records : Records host record) (trees : List Tree)
    {values : List Value} {start last : World Memory}
    (unfolds : UnfoldsAll host start values trees last) :
    record last = record start ++ callsOf trees := by
  cases unfolds with
  | nil => exact (List.append_nil _).symm
  | cons own rest =>
      rw [UnfoldsAll.records records _ rest, Unfolds.records records _ own, List.append_assoc]
      rfl

theorem UnfoldsDrawn.records (records : Records host record) (trees : List Tree) {id : Nat}
    {start last : World Memory} (unfolds : UnfoldsDrawn host start id trees last) :
    record last = record start ++ callsOf trees := by
  cases unfolds with
  | finish ended =>
      have same := records.next id start
      rw [ended] at same
      exact same.trans (List.append_nil _).symm
  | draw yielded own rest =>
      have same := records.next id start
      rw [yielded] at same
      rw [UnfoldsDrawn.records records _ rest, Unfolds.records records _ own, same,
        List.append_assoc]
      rfl

end

end Records

end Registration

end LineScript
