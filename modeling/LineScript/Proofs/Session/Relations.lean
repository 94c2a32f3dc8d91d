import LineScript.Proofs.Session.Evaluation
import Mathlib.Order.Defs.Unbundled

/-!
# Relations between computations

What is known of the parts of a computation carries over to the whole: where it leads to, that it
does the same in places that are alike, and that more fuel makes no difference to it. Each of these
is stated once for sequences. The first two are properties of a single computation that sequences
inherit, and whatever is built from queries of a host has such a property if they have it.
-/

namespace LineScript

variable {Place α β : Type}

theorem exists_of_run_bind {first : ExceptT Failure (StateM Place) α}
    {next : α → ExceptT Failure (StateM Place) β} {start last : Place} {value : β}
    (done : (first >>= next).run start = (.ok value, last)) :
    ∃ between place, first.run start = (.ok between, place) ∧
      (next between).run place = (.ok value, last) := by
  rcases before : first.run start with ⟨failure | between, place⟩
  · rw [run_bind_of_error before] at done
    cases done
  · rw [run_bind_of_ok before] at done
    exact ⟨between, place, rfl, done⟩

/-- A property of computations that a sequence has if its parts have it. -/
structure Sequential (Good : (α : Type) → ExceptT Failure (StateM Place) α → Prop) : Prop where
  pure : ∀ {α : Type} (value : α), Good α (pure value)
  throw : ∀ {α : Type} (failure : Failure), Good α (throw failure)
  bind : ∀ {α β : Type} {first : ExceptT Failure (StateM Place) α}
    {next : α → ExceptT Failure (StateM Place) β}, Good α first →
    (∀ start value last, first.run start = (.ok value, last) → Good β (next value)) →
    Good β (first >>= next)

namespace Sequential

variable {Good : (α : Type) → ExceptT Failure (StateM Place) α → Prop}

/-- A sequence whose second part has the property whatever the first part yields. -/
theorem andThen (sequential : Sequential Good) {first : ExceptT Failure (StateM Place) α}
    {next : α → ExceptT Failure (StateM Place) β} (good : Good α first)
    (rest : ∀ value, Good β (next value)) : Good β (first >>= next) :=
  sequential.bind good fun _ value _ _ => rest value

theorem map (sequential : Sequential Good) {first : ExceptT Failure (StateM Place) α}
    (good : Good α first) (change : α → β) :
    Good β (first >>= fun value => Pure.pure (change value)) :=
  sequential.andThen good fun _ => sequential.pure _

theorem mapM (sequential : Sequential Good) {step : α → ExceptT Failure (StateM Place) β}
    (good : ∀ item, Good β (step item)) (items : List α) : Good (List β) (items.mapM step) := by
  induction items with
  | nil =>
      rw [List.mapM_nil]
      exact sequential.pure []
  | cons item items ih =>
      rw [List.mapM_cons]
      exact sequential.andThen (good item) fun _ => sequential.map ih _

end Sequential

/-- Whether a computation leads from each place to one that is related to it. -/
def Leads (Related : Place → Place → Prop) (α : Type)
    (computation : ExceptT Failure (StateM Place) α) : Prop :=
  ∀ start, Related start (computation.run start).2

theorem sequential_leads (Related : Place → Place → Prop) [Std.Refl Related]
    [IsTrans Place Related] : Sequential (Leads Related) where
  pure _ start := Std.Refl.refl start
  throw _ start := Std.Refl.refl start
  bind := by
    intro α β first next leads rest start
    have before := leads start
    rcases done : first.run start with ⟨failure | value, last⟩
    · rw [done] at before
      rw [run_bind_of_error done]
      exact before
    · rw [done] at before
      rw [run_bind_of_ok done]
      exact IsTrans.trans _ _ _ before (rest start value last done last)

/-- Whether a computation yields the same result in places that are alike, and ends in such
places. -/
def Respects (Alike : Place → Place → Prop) (α : Type)
    (computation : ExceptT Failure (StateM Place) α) : Prop :=
  ∀ start other, Alike start other →
    (computation.run start).1 = (computation.run other).1 ∧
      Alike (computation.run start).2 (computation.run other).2

theorem sequential_respects (Alike : Place → Place → Prop) : Sequential (Respects Alike) where
  pure _ _ _ alike := ⟨rfl, alike⟩
  throw _ _ _ alike := ⟨rfl, alike⟩
  bind := by
    intro α β first next respects rest start other alike
    obtain ⟨same, after⟩ := respects start other alike
    rcases one : first.run start with ⟨failure | value, last⟩
    · rcases two : first.run other with ⟨result, final⟩
      rw [one, two] at same after
      obtain rfl : .error failure = result := same
      rw [run_bind_of_error one, run_bind_of_error two]
      exact ⟨rfl, after⟩
    · rcases two : first.run other with ⟨result, final⟩
      rw [one, two] at same after
      obtain rfl : .ok value = result := same
      rw [run_bind_of_ok one, run_bind_of_ok two]
      exact rest start value last one last final after

/-- Whether a computation comes to what another one comes to, unless it is cut off. -/
def CutFrom (short long : ExceptT Failure (StateM Place) α) : Prop :=
  ∀ start, (short.run start).1 ≠ .error .outOfFuel → long.run start = short.run start

namespace CutFrom

theorem refl (computation : ExceptT Failure (StateM Place) α) : CutFrom computation computation :=
  fun _ _ => rfl

theorem outOfFuel (long : ExceptT Failure (StateM Place) α) : CutFrom (throw .outOfFuel) long :=
  fun _ ended => absurd rfl ended

theorem bind {short long : ExceptT Failure (StateM Place) α}
    {next later : α → ExceptT Failure (StateM Place) β} (cut : CutFrom short long)
    (rest : ∀ value, CutFrom (next value) (later value)) :
    CutFrom (short >>= next) (long >>= later) := by
  intro start ended
  rcases done : short.run start with ⟨failure | value, last⟩
  · have own : (short.run start).1 ≠ .error .outOfFuel := by
      intro cutOff
      rw [done] at cutOff
      obtain rfl : failure = .outOfFuel := Except.error.inj cutOff
      exact ended (congrArg Prod.fst (run_bind_of_error done))
    rw [run_bind_of_error done, run_bind_of_error ((cut start own).trans done)]
  · have own : (short.run start).1 ≠ .error .outOfFuel := by
      rw [done]
      rintro ⟨⟩
    rw [run_bind_of_ok done] at ended ⊢
    rw [run_bind_of_ok ((cut start own).trans done)]
    exact rest value last ended

end CutFrom

section Sessions

variable {Memory : Type} {Related : World Memory → World Memory → Prop}

instance [Std.Refl Related] :
    Std.Refl (α := Session Memory) (InvImage Related Session.world) :=
  ⟨fun session => Std.Refl.refl session.world⟩

/-- A query leads sessions where it leads their worlds. -/
theorem Leads.lift {query : Query Memory α} (leads : Leads Related α query) :
    Leads (InvImage Related Session.world) α (liftM query : Procedure Memory α) :=
  fun start => leads start.world

theorem leads_state [Std.Refl Related] :
    Leads (InvImage Related Session.world) State (Procedure.state : Procedure Memory State) :=
  fun start => Std.Refl.refl start.world

theorem leads_modifyState [Std.Refl Related] (change : State → State) :
    Leads (InvImage Related Session.world) Unit
      (Procedure.modifyState change : Procedure Memory Unit) :=
  fun start => Std.Refl.refl start.world

end Sessions

end LineScript
