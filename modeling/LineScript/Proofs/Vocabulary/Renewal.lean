import LineScript.Proofs.Run.Fuel
import LineScript.Proofs.Vocabulary.Gathering

/-!
# Functions that answer anew

A function may answer with a new stream each time it is called. Its registration is renewable all
the same: whatever unfolds to a tree offers the actions that the leaves of the tree give, up to the
first one that gives none (`LineScript.Registration.offers_of_unfolds`). So it is enough that the
trees of all answers have the same leaves (`LineScript.Registration.renewable_of_unfolds`).
-/

namespace LineScript.Registration

variable {Memory α : Type} {host : Host Memory}

/-- Whether some actions are those that leaves give, up to the first leaf that gives none. -/
inductive GivesUpTo : List Value → List Action → Prop where
  | nil : GivesUpTo [] []
  | given {leaf : Value} {leaves : List Value} {actions row : List Action} :
      Gives leaf actions → GivesUpTo leaves row → GivesUpTo (leaf :: leaves) (actions ++ row)
  | refused {leaf : Value} (leaves : List Value) : (∀ actions, ¬Gives leaf actions) →
      GivesUpTo (leaf :: leaves) []

theorem Gives.isLeaf {value : Value} {actions : List Action} (gives : Gives value actions) :
    value.isLeaf = true := by
  cases gives with
  | action action => rfl
  | record same _ =>
      cases value with
      | list items => cases same
      | tuple items => cases same
      | stream id asynchronous => cases same
      | pending id => cases same
      | callable function => cases same
      | _ => rfl
  | mapping _ _ => rfl

theorem Gives.unique {leaf : Value} {actions others : List Action} (one : Gives leaf actions)
    (two : Gives leaf others) : actions = others := by
  obtain ⟨outcome, -, outcomes⟩ := exists_outcome_of_isLeaf one.isLeaf Host.ofNames
  have same := (outcomes actions).mp one
  rw [(outcomes others).mp two] at same
  exact (Except.ok.inj same).symm

theorem exists_givesUpTo (leaves : List Value) : ∃ row, GivesUpTo leaves row := by
  induction leaves with
  | nil => exact ⟨[], .nil⟩
  | cons leaf leaves ih =>
      obtain ⟨row, rest⟩ := ih
      by_cases own : ∃ actions, Gives leaf actions
      · obtain ⟨actions, gives⟩ := own
        exact ⟨actions ++ row, .given gives rest⟩
      · exact ⟨[], .refused leaves fun actions gives => own ⟨actions, gives⟩⟩

namespace GivesUpTo

variable {front back : List Value} {row own : List Action}

/-- The actions up to a leaf that gives none begin those of a longer row of leaves. -/
theorem prefix_of_append (begins : GivesUpTo front own) (all : GivesUpTo (front ++ back) row) :
    own <+: row := by
  induction begins generalizing row with
  | nil => exact List.nil_prefix
  | given gives _ ih =>
      cases all with
      | given gives' rest =>
          obtain rfl := gives.unique gives'
          exact (List.prefix_append_right_inj _).mpr (ih rest)
      | refused _ none => exact absurd gives (none _)
  | refused _ _ => exact List.nil_prefix

/-- Behind leaves that all give actions those of the other leaves follow. -/
theorem of_append {rows : List (List Action)} (given : List.Forall₂ Gives front rows)
    (all : GivesUpTo (front ++ back) row) :
    ∃ rest, GivesUpTo back rest ∧ row = rows.flatten ++ rest := by
  induction given generalizing row with
  | nil => exact ⟨row, all, rfl⟩
  | cons gives _ ih =>
      cases all with
      | given gives' others =>
          obtain rfl := gives.unique gives'
          obtain ⟨rest, begins, rfl⟩ := ih others
          exact ⟨rest, begins, by rw [List.flatten_cons, List.append_assoc]⟩
      | refused _ none => exact absurd gives (none _)

theorem eq_flatten {rows : List (List Action)} (given : List.Forall₂ Gives front rows)
    (begins : GivesUpTo front row) : row = rows.flatten := by
  rw [← List.append_nil front] at begins
  obtain ⟨rest, none, rfl⟩ := of_append given begins
  cases none
  rw [List.append_nil]

end GivesUpTo

/-- A computation that more fuel does not change comes to what it settles on, unless it is cut
off. -/
theorem Settles.eq_of_run {computation : Nat → Query Memory α}
    (cut : ∀ fuel more, CutFrom (computation fuel) (computation (fuel + more)))
    {start last after : World Memory} {result outcome : Except Failure α}
    (settles : Settles computation start result last) {fuel : Nat}
    (done : (computation fuel).run start = (outcome, after))
    (ended : outcome ≠ .error .outOfFuel) : (outcome, after) = (result, last) := by
  obtain ⟨enough, settled⟩ := settles
  have same := cut fuel enough start
  rw [done, settled _ (Nat.le_add_left enough fuel)] at same
  exact (same ended).symm

/-- What has been resolved has come to what the leaves give, each of which gives some actions. -/
theorem Flattens.given_of_run {computation : Nat → Query Memory (List Action)}
    (cut : ∀ fuel more, CutFrom (computation fuel) (computation (fuel + more)))
    {leaves : List Value} {start last after : World Memory} {actions : List Action}
    (flattens : Flattens computation leaves start last) {fuel : Nat}
    (done : (computation fuel).run start = (.ok actions, after)) :
    after = last ∧ ∃ rows, List.Forall₂ Gives leaves rows ∧ actions = rows.flatten := by
  rcases gives_or_refused leaves with ⟨rows, gives⟩ | ⟨leaf, member, none⟩
  · have same := (flattens.given rows gives).eq_of_run cut done (by simp)
    obtain ⟨result, rfl⟩ := Prod.mk.inj same
    exact ⟨rfl, rows, gives, Except.ok.inj result⟩
  · obtain ⟨fault, place, settles⟩ := flattens.refused leaf member none
    cases settles.eq_of_run cut done (by simp)

theorem resolve_cut (host : Host Memory) (value : Value) (fuel more : Nat) :
    CutFrom (resolve host fuel value) (resolve host (fuel + more) value) :=
  (resolve_add_fuel host fuel more).one value

mutual

/-- What is gathered from a registration begins what the leaves of its tree give. -/
theorem gathered_of_unfolds (tree : Tree) {value : Value} {start last : World Memory}
    (unfolds : Unfolds host start value tree last) {row : List Action}
    (begins : GivesUpTo tree.leaves row) (fuel : Nat) : gathered host fuel value start <+: row := by
  cases fuel with
  | zero => exact List.nil_prefix
  | succ fuel =>
      cases unfolds with
      | leaf _ leaf =>
          refine (leaf_offers leaf (fun actions gives => ?_) start).gathers (fuel + 1)
          cases begins with
          | given gives' rest =>
              cases rest
              rw [List.append_nil]
              exact gives.unique gives'
          | refused _ none => exact absurd gives (none actions)
      | list all => exact gathered_of_unfoldsAll _ all begins fuel
      | tuple all => exact gathered_of_unfoldsAll _ all begins fuel
      | stream drawn => exact gathered_of_unfoldsDrawn _ drawn begins fuel
      | asynchronous draws all =>
          rw [gathered]
          rcases drained : (drain host _ fuel).run start with ⟨failure | items, next⟩
          · exact List.nil_prefix
          · have same := draws.settles.eq_of_run (drain_add_fuel host _) drained (by simp)
            obtain ⟨result, rfl⟩ := Prod.mk.inj same
            obtain rfl := Except.ok.inj result
            exact gathered_of_unfoldsAll _ all begins fuel
      | pending awaited result =>
          rw [gathered, awaited]
          exact gathered_of_unfolds _ result begins fuel
      | call called result =>
          rw [gathered, called]
          exact gathered_of_unfolds _ result begins fuel

theorem gathered_of_unfoldsAll (trees : List Tree) {values : List Value}
    {start last : World Memory} (unfolds : UnfoldsAll host start values trees last)
    {row : List Action} (begins : GivesUpTo (leavesOf trees) row) (fuel : Nat) :
    gatheredAll host fuel values start <+: row := by
  cases fuel with
  | zero => exact List.nil_prefix
  | succ fuel =>
      cases unfolds with
      | nil => exact List.nil_prefix
      | cons own rest =>
          rw [gatheredAll]
          rcases resolved : (resolve host fuel _).run start with ⟨failure | actions, next⟩
          · obtain ⟨first, known⟩ := exists_givesUpTo (Tree.leaves _)
            exact (gathered_of_unfolds _ own known fuel).trans (known.prefix_of_append begins)
          · obtain ⟨rfl, rows, given, rfl⟩ :=
              (flattens_of_unfolds _ own).given_of_run (resolve_cut host _) resolved
            obtain ⟨others, later, rfl⟩ := begins.of_append given
            exact (List.prefix_append_right_inj _).mpr (gathered_of_unfoldsAll _ rest later fuel)

theorem gathered_of_unfoldsDrawn (trees : List Tree) {id : Nat} {start last : World Memory}
    (unfolds : UnfoldsDrawn host start id trees last) {row : List Action}
    (begins : GivesUpTo (leavesOf trees) row) (fuel : Nat) :
    gatheredStream host fuel id start <+: row := by
  cases fuel with
  | zero => exact List.nil_prefix
  | succ fuel =>
      cases unfolds with
      | finish ended =>
          rw [gatheredStream, ended]
          exact List.nil_prefix
      | draw yielded own rest =>
          rw [gatheredStream, yielded]
          simp only []
          rcases resolved : (resolve host fuel _).run _ with ⟨failure | actions, next⟩
          · obtain ⟨first, known⟩ := exists_givesUpTo (Tree.leaves _)
            exact (gathered_of_unfolds _ own known fuel).trans (known.prefix_of_append begins)
          · obtain ⟨rfl, rows, given, rfl⟩ :=
              (flattens_of_unfolds _ own).given_of_run (resolve_cut host _) resolved
            obtain ⟨others, later, rfl⟩ := begins.of_append given
            exact (List.prefix_append_right_inj _).mpr (gathered_of_unfoldsDrawn _ rest later fuel)

end

/-- What unfolds to a tree offers the actions of its leaves, up to the first one that gives none. -/
theorem offers_of_unfolds {tree : Tree} {value : Value} {start last : World Memory}
    (unfolds : Unfolds host start value tree last) {row : List Action}
    (begins : GivesUpTo tree.leaves row) : Offers host start value row where
  gathers := gathered_of_unfolds tree unfolds begins
  comes fuel actions after done := by
    obtain ⟨-, rows, given, rfl⟩ :=
      (flattens_of_unfolds tree unfolds).given_of_run (resolve_cut host value) done
    exact (begins.eq_flatten given).symm

/-- A function is renewable if its answers unfold to trees with the same leaves, also if they are
new streams. -/
theorem renewable_of_unfolds {Kept : Memory → Prop} {function : Callable} {leaves : List Value}
    (answers : ∀ start value last, Kept start.memory →
      (host.callGenerator function).run start = (.ok value, last) →
      ∃ tree final, Unfolds host last value tree final ∧ tree.leaves = leaves)
    {row : List Action} (begins : GivesUpTo leaves row) :
    Renewable host Kept (.callable function) row := by
  refine .callable fun start value last kept called => ?_
  obtain ⟨tree, final, unfolds, rfl⟩ := answers start value last kept called
  exact offers_of_unfolds unfolds begins

end LineScript.Registration
