import LineScript.Proofs.Run.Execution
import LineScript.Proofs.Run.Parts

/-!
# Worlds that are alike

Two worlds are *alike* if they differ at most in what has been noted. The engine notes what it does
but does not look at it, and neither does a host that *ignores notices*. So a query or a run comes
to the same in worlds that are alike, and leaves worlds that are alike.
-/

namespace LineScript

variable {Memory : Type}

/-- Whether two worlds differ at most in what has been noted. -/
structure World.Alike (first second : World Memory) : Prop where
  engine : first.engine = second.engine
  memory : first.memory = second.memory

/-- Whether two sessions have the same state and differ at most in what has been noted. -/
structure Session.Alike (first second : Session Memory) : Prop where
  state : first.state = second.state
  world : first.world.Alike second.world

namespace World.Alike

variable {first second third : World Memory}

theorem refl (world : World Memory) : world.Alike world :=
  ⟨rfl, rfl⟩

theorem symm (alike : first.Alike second) : second.Alike first :=
  ⟨alike.engine.symm, alike.memory.symm⟩

theorem trans (before : first.Alike second) (after : second.Alike third) : first.Alike third :=
  ⟨before.engine.trans after.engine, before.memory.trans after.memory⟩

theorem noting (alike : first.Alike second) (notice other : Notice) :
    (first.noting notice).Alike (second.noting other) :=
  ⟨alike.engine, alike.memory⟩

theorem noting_left (world : World Memory) (notice : Notice) : (world.noting notice).Alike world :=
  ⟨rfl, rfl⟩

end World.Alike

namespace Session.Alike

variable {first second third : Session Memory}

theorem refl (session : Session Memory) : session.Alike session :=
  ⟨rfl, .refl session.world⟩

theorem symm (alike : first.Alike second) : second.Alike first :=
  ⟨alike.state.symm, alike.world.symm⟩

theorem trans (before : first.Alike second) (after : second.Alike third) : first.Alike third :=
  ⟨before.state.trans after.state, before.world.trans after.world⟩

theorem noting (alike : first.Alike second) (notice other : Notice) :
    (first.noting notice).Alike (second.noting other) :=
  ⟨alike.state, alike.world.noting notice other⟩

theorem inWorld (alike : first.Alike second) {world other : World Memory}
    (worlds : world.Alike other) : (first.inWorld world).Alike (second.inWorld other) :=
  ⟨alike.state, worlds⟩

theorem withLine (alike : first.Alike second) (line : Line) :
    (first.withLine line).Alike (second.withLine line) := by
  cases line with
  | text content => exact ⟨congrArg (Entries.put · _ _) alike.state, alike.world⟩
  | sentinel mark => exact alike

theorem withoutLine (alike : first.Alike second) : first.withoutLine.Alike second.withoutLine :=
  ⟨congrArg (Entries.erase · _) alike.state, alike.world⟩

end Session.Alike

/-- Whether what a host does does not depend on what has been noted. -/
structure Host.IgnoresNotices (host : Host Memory) : Prop
    extends host.QueriesAre (Respects World.Alike) where
  sleep : ∀ seconds, Respects World.Alike Unit (host.sleep seconds)
  print : ∀ line, Respects World.Alike Unit (host.print line)
  readKey : Respects World.Alike (Option Char) host.readKey
  callHandler : ∀ function arguments,
    Respects Session.Alike Answer (host.callHandler function arguments)

variable {host : Host Memory}

theorem respects_note (notice : Notice) :
    Respects World.Alike Unit (Query.note notice : Query Memory Unit) :=
  fun _ _ alike => ⟨rfl, alike.noting notice notice⟩

theorem respects_modifyEngine (change : Engine → Engine) :
    Respects World.Alike Unit (Query.modifyEngine change : Query Memory Unit) :=
  fun _ _ alike => ⟨rfl, congrArg change alike.engine, alike.memory⟩

theorem respects_engine : Respects World.Alike Engine (Query.engine : Query Memory Engine) :=
  fun _ _ alike => ⟨congrArg Except.ok alike.engine, alike⟩

theorem Respects.lift {α : Type} {query : Query Memory α}
    (respects : Respects World.Alike α query) :
    Respects Session.Alike α (Query.lift query) := by
  intro start other alike
  obtain ⟨same, after⟩ := respects start.world other.world alike.world
  exact ⟨same, alike.inWorld after⟩

theorem Respects.attempt {α : Type} {procedure : Procedure Memory α}
    (respects : Respects Session.Alike α procedure) :
    Respects Session.Alike (Except Failure α) (Procedure.attempt procedure) := by
  intro start other alike
  obtain ⟨same, after⟩ := respects start other alike
  exact ⟨congrArg Except.ok same, after⟩

namespace Host.IgnoresNotices

theorem procedures (ignores : host.IgnoresNotices) :
    host.ProceduresAre (Respects World.Alike) (Respects Session.Alike) where
  toQueriesAre := ignores.toQueriesAre
  sleep := ignores.sleep
  print := ignores.print
  readKey := ignores.readKey
  callHandler := ignores.callHandler
  note := respects_note
  lift := Respects.lift
  attempt := Respects.attempt
  state _ _ alike := ⟨congrArg Except.ok alike.state, alike⟩
  modifyState change _ _ alike := ⟨rfl, congrArg change alike.state, alike.world⟩

/-- Whether an action matches a line does not depend on what has been noted. -/
theorem matched (ignores : host.IgnoresNotices) (action : Action) (line : Line) :
    Respects World.Alike (Option (List Value)) (action.matched host line) :=
  Matcher.arguments_is (sequential_respects _) ignores.toQueriesAre _ _

/-- What a handler does does not depend on what has been noted. -/
theorem handle (ignores : host.IgnoresNotices) (handler : Handler) (arguments : List Value) :
    Respects Session.Alike Value (Action.handle host handler arguments) :=
  Action.handle_is (sequential_respects _) (sequential_respects _) ignores.procedures _ _

theorem prepare (ignores : host.IgnoresNotices) (fuel : Nat) :
    Respects World.Alike (List Action) (Engine.prepare host fuel) := by
  have sequential := sequential_respects (World.Alike : World Memory → World Memory → Prop)
  induction fuel with
  | zero => exact sequential.throw _
  | succ fuel ih =>
      refine sequential.andThen respects_engine fun engine => ?_
      cases engine.registrations[engine.resolved]? with
      | none => exact sequential.pure _
      | some registration =>
          refine sequential.andThen ((Registration.resolve_is sequential ignores.toQueriesAre
            respects_note fuel).one registration) fun actions => ?_
          exact sequential.andThen (respects_modifyEngine _) fun _ =>
            sequential.andThen respects_engine fun _ =>
              sequential.andThen (respects_note _) fun _ => ih

/-- What a run comes to does not depend on what has been noted. -/
theorem script (ignores : host.IgnoresNotices) (fuel : Nat) (source : Value) :
    Respects Session.Alike Unit (Run.script host fuel source) :=
  Run.script_is (sequential_respects _) (sequential_respects _) ignores.procedures
    (ignores.prepare fuel) source

end Host.IgnoresNotices

theorem ignoresNotices_ofNames : Host.ofNames.IgnoresNotices where
  callMatcher function line start other alike := by
    cases line <;> exact ⟨rfl, alike⟩
  callGenerator _ _ _ alike := ⟨rfl, alike⟩
  await _ _ _ alike := ⟨rfl, alike⟩
  next _ _ _ alike := ⟨rfl, alike⟩
  sleep _ _ _ alike := ⟨rfl, alike⟩
  print _ _ _ alike := ⟨rfl, alike⟩
  readKey _ _ alike := ⟨rfl, alike⟩
  callHandler _ _ _ _ alike := ⟨rfl, alike⟩

end LineScript
