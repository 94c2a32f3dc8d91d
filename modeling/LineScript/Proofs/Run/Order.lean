import LineScript.Proofs.Library.Conduct

/-!
# The order of actions

The order of two adjacent actions does not matter to a run if no line is accepted and matched by
both of them (`LineScript.Run.script_order`).
-/

namespace LineScript.Run

variable {Memory : Type} {host : Host Memory} {first second : Action}

/-- **The order of adjacent actions.** Two adjacent actions that have pure matchers, which do not
raise, and of which no line is accepted and matched by both, may change places. Take two engines
that are prepared with rows of actions which differ in this alone, and any script. If it is read
alike, the two runs have the same result, leave the same state, and call the same handlers with the
same arguments and the same state, one after the other. Whether the rows differ so need only be
known when the script has been read, and when preparing the engines fails, they fail alike. -/
theorem script_order (works : host.WorksAlike (World.Swapped first second))
    (apart : Apart host first second) {fuel : Nat} {source : Value}
    {session other : Session Memory} (state : session.state = other.state)
    (read : ((scriptLines host fuel source).run session.world).1 =
      ((scriptLines host fuel source).run other.world).1)
    (prepared : PreparedSwapped first second
      ((Engine.prepare host fuel).run ((scriptLines host fuel source).run session.world).2)
      ((Engine.prepare host fuel).run ((scriptLines host fuel source).run other.world).2)) :
    ((script host fuel source).run session).1 = ((script host fuel source).run other).1 ∧
      ((script host fuel source).run session).2.state =
        ((script host fuel source).run other).2.state ∧
      (runEvents host fuel source session).filter Event.isCall =
        (runEvents host fuel source other).filter Event.isCall := by
  obtain ⟨⟨result, left, events⟩, -⟩ := script_exchanged works apart state read prepared
  exact ⟨result, left, events⟩

/-- An action for a control value does not take a text, and one with a pattern takes nothing
else. -/
theorem apart_ofPattern_ofSentinel (host : Host Memory) (pattern : Pattern) (mark : Sentinel)
    (handler handler' : Handler) :
    Apart host (.ofPattern pattern handler) (.ofSentinel mark handler') where
  own :=
    { pure := fun _ => ⟨_, fun world => ⟨rfl, .refl world⟩⟩
      answers := fun _ _ => ⟨_, rfl⟩ }
  other :=
    { pure := fun _ => ⟨_, fun world => ⟨rfl, .refl world⟩⟩
      answers := fun _ _ => ⟨_, rfl⟩ }
  disjoint := by
    rintro (content | sign) world ⟨⟨own, -⟩, their, -⟩
    · cases their
    · cases own

/-- An action for all texts, whose handler runs a script, and an action for FINISH. -/
def conversing : Action × Action :=
  (.ofPattern ⟨"^", {}, .anchor .textStart, 0⟩ (.call ⟨0, "converse"⟩),
    .ofSentinel .finish (.call ⟨1, "part"⟩))

/-- The handlers of these actions. -/
def speaking : Library.Memory :=
  { functions := #[.handling "converse" [.run (.plain (.list []))] (.recipe (.plain .null)) false,
      .handling "part" [.print (.recipe (.plain (.text "gone")))] (.recipe (.plain .null)) false] }

/-- The engine in which two actions are registered one after the other, with the first of them
resolved up to some place. -/
def meeting (first second : Action) (resolved : Nat) : Engine where
  options := ⟨.bool false, []⟩
  registrations := [.action first, .action second]
  actions := [first, second].take resolved
  resolved := resolved

/-- A session with this engine before anything is resolved. -/
def attending (first second : Action) : Session Library.Memory where
  state := []
  world := ⟨meeting first second 0, [], speaking⟩

theorem prepare_meeting (first second : Action) :
    (Engine.prepare (Library.host 9 1) 9).run (attending first second).world =
      (.ok [first, second], ⟨meeting first second 2, [.prepared 2, .prepared 1], speaking⟩) := rfl

/-- A text comes to the same whether the action for texts or the one for FINISH is registered
first. -/
theorem script_order_conversing :
    Apart (Library.host 9 1) conversing.1 conversing.2 ∧
      ((script (Library.host 9 1) 9 (.text "hello")).run
          (attending conversing.1 conversing.2)).1 =
        ((script (Library.host 9 1) 9 (.text "hello")).run
          (attending conversing.2 conversing.1)).1 := by
  have apart : Apart (Library.host 9 1) conversing.1 conversing.2 :=
    apart_ofPattern_ofSentinel _ _ _ _ _
  have exchanged : Exchanged conversing.1 conversing.2 [conversing.1, conversing.2]
      [conversing.2, conversing.1] := ⟨[], [], rfl, rfl⟩
  have prepared : PreparedSwapped conversing.1 conversing.2
      ((Engine.prepare (Library.host 9 1) 9).run (attending conversing.1 conversing.2).world)
      ((Engine.prepare (Library.host 9 1) 9).run (attending conversing.2 conversing.1).world) := by
    rw [prepare_meeting, prepare_meeting]
    exact .ready exchanged ⟨⟨rfl, fun _ => rfl, exchanged⟩, rfl⟩
  have state : (attending conversing.1 conversing.2).state =
      (attending conversing.2 conversing.1).state := rfl
  have read : ((scriptLines (Library.host 9 1) 9 (.text "hello")).run
      (attending conversing.1 conversing.2).world).1 =
        ((scriptLines (Library.host 9 1) 9 (.text "hello")).run
          (attending conversing.2 conversing.1).world).1 := rfl
  have works := Library.worksAlike_swapped_host 9 1 apart
  exact ⟨apart, (script_order works apart state read prepared).1⟩

end LineScript.Run
