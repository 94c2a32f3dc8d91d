import LineScript.Proofs.Run.Course
import LineScript.Proofs.Session.Relations

/-!
# More fuel

Resolving registrations, preparing an engine, approving a script and running it come to the same
with more fuel, unless they are cut off (`LineScript.Run.script_add_fuel`).
-/

namespace LineScript

variable {Memory : Type} {host : Host Memory}

namespace Registration

theorem drain_add_fuel (host : Host Memory) (id fuel more : Nat) :
    CutFrom (drain host id fuel) (drain host id (fuel + more)) := by
  induction fuel with
  | zero => exact .outOfFuel _
  | succ fuel ih =>
      rw [Nat.add_right_comm]
      refine (CutFrom.refl (host.next id)).bind ?_
      rintro (_ | item)
      · exact .refl _
      · exact ih.bind fun _ => .refl _

/-- Whether resolving registrations comes to the same with more fuel, unless it is cut off. -/
structure ResolvingCutFrom (host : Host Memory) (fuel more : Nat) : Prop where
  one : ∀ registration,
    CutFrom (resolve host fuel registration) (resolve host (fuel + more) registration)
  all : ∀ registrations,
    CutFrom (resolveAll host fuel registrations) (resolveAll host (fuel + more) registrations)
  stream : ∀ id, CutFrom (resolveStream host fuel id) (resolveStream host (fuel + more) id)

theorem resolve_add_fuel (host : Host Memory) (fuel more : Nat) :
    ResolvingCutFrom host fuel more := by
  induction fuel with
  | zero => exact ⟨fun _ => .outOfFuel _, fun _ => .outOfFuel _, fun _ => .outOfFuel _⟩
  | succ fuel ih =>
      refine ⟨?_, ?_, ?_⟩
      · intro registration
        rw [Nat.add_right_comm]
        unfold resolve
        split
        · exact .refl _
        · exact (CutFrom.refl (host.await _)).bind ih.one
        · exact ih.all _
        · exact ih.all _
        · exact ih.stream _
        · exact (drain_add_fuel host _ fuel more).bind ih.all
        · split
          · exact .refl _
          · exact .refl _
          · exact (CutFrom.refl (Query.note _)).bind fun _ =>
              (CutFrom.refl (host.callGenerator _)).bind ih.one
          · exact .refl _
      · intro registrations
        rw [Nat.add_right_comm]
        cases registrations with
        | nil => exact .refl _
        | cons registration others =>
            exact (ih.one registration).bind fun _ => (ih.all others).bind fun _ => .refl _
      · intro id
        rw [Nat.add_right_comm]
        refine (CutFrom.refl (host.next id)).bind ?_
        rintro (_ | registration)
        · exact .refl _
        · exact (ih.one registration).bind fun _ => (ih.stream id).bind fun _ => .refl _

end Registration

theorem Engine.prepare_add_fuel (host : Host Memory) (fuel more : Nat) :
    CutFrom (prepare host fuel) (prepare host (fuel + more)) := by
  induction fuel with
  | zero => exact .outOfFuel _
  | succ fuel ih =>
      rw [Nat.add_right_comm]
      refine (CutFrom.refl Query.engine).bind fun engine => ?_
      cases engine.registrations[engine.resolved]? with
      | none => exact .refl _
      | some registration =>
          refine ((Registration.resolve_add_fuel host fuel more).one registration).bind ?_
          intro actions
          refine (CutFrom.refl (Query.modifyEngine _)).bind fun _ => ?_
          refine (CutFrom.refl Query.engine).bind fun _ => ?_
          exact (CutFrom.refl (Query.note _)).bind fun _ => ih

namespace Run

theorem scriptLines_add_fuel (host : Host Memory) (fuel more : Nat) (source : Value) :
    CutFrom (scriptLines host fuel source) (scriptLines host (fuel + more) source) := by
  unfold scriptLines
  split
  case h_5 =>
    exact (Registration.drain_add_fuel host _ fuel more).bind fun _ => .refl _
  all_goals exact .refl _

theorem approve_add_fuel (host : Host Memory) (fuel more : Nat) (source : Value) :
    CutFrom (approve host fuel source) (approve host (fuel + more) source) :=
  (scriptLines_add_fuel host fuel more source).bind fun _ =>
    (Engine.prepare_add_fuel host fuel more).bind fun _ => .refl _

/-- A run that ends comes to the same with more fuel. -/
theorem script_add_fuel (host : Host Memory) (fuel more : Nat) (source : Value) :
    CutFrom (script host fuel source) (script host (fuel + more) source) := by
  intro session ended
  have approving := approve_add_fuel host fuel more source session.world
  rcases approved : (approve host fuel source).run session.world with
    ⟨failure | ⟨actions, lines⟩, world⟩
  · rw [script_run_of_refused approved] at ended ⊢
    rw [approved] at approving
    refine script_run_of_refused (approving ?_)
    rintro ⟨⟩
    exact ended rfl
  · rw [script_run_of_approved approved] at ended ⊢
    rw [approved] at approving
    rw [script_run_of_approved (approving (by rintro ⟨⟩))]
    unfold runCourse at ended ⊢
    rw [course_add_fuel ended]

end Run

end LineScript
