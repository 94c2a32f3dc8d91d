import LineScript.Session.Basic

/-!
# Evaluating computations

Evaluated where it starts, a computation yields a result and the place where it ends. Queries and
procedures are sequenced alike: after a value the next computation starts where the first one has
ended, after a failure none does. A query that is used as a procedure leaves the state as it is.
-/

namespace LineScript

variable {Place α β : Type}

/-- After a value the next computation starts where the first one has ended. -/
theorem run_bind_of_ok {first : ExceptT Failure (StateM Place) α}
    {next : α → ExceptT Failure (StateM Place) β} {start last : Place} {value : α}
    (done : first.run start = (.ok value, last)) :
    (first >>= next).run start = (next value).run last := by
  change (match first.run start with | (result, place) => ExceptT.bindCont next result place) = _
  rw [done]
  rfl

/-- A failure ends a sequence of computations. -/
theorem run_bind_of_error {first : ExceptT Failure (StateM Place) α}
    {next : α → ExceptT Failure (StateM Place) β} {start last : Place} {failure : Failure}
    (failed : first.run start = (.error failure, last)) :
    (first >>= next).run start = (.error failure, last) := by
  change (match first.run start with | (result, place) => ExceptT.bindCont next result place) = _
  rw [failed]
  rfl

@[simp] theorem run_pure (value : α) (start : Place) :
    (pure value : ExceptT Failure (StateM Place) α).run start = (.ok value, start) := rfl

@[simp] theorem run_throw (failure : Failure) (start : Place) :
    (throw failure : ExceptT Failure (StateM Place) α).run start = (.error failure, start) := rfl

/-- A computation that fails goes on with what its failure is caught by, where it has ended. -/
theorem run_tryCatch (computation : ExceptT Failure (StateM Place) α)
    (caught : Failure → ExceptT Failure (StateM Place) α) (start : Place) :
    (tryCatch computation caught).run start =
      match computation.run start with
      | (.ok value, last) => (.ok value, last)
      | (.error failure, last) => (caught failure).run last := by
  have sequence (first : StateM Place (Except Failure α))
      (next : Except Failure α → StateM Place (Except Failure α)) :
      (first >>= next) start = next (first start).1 (first start).2 := rfl
  rw [ExceptT.run_tryCatch, sequence]
  rcases computation.run start with ⟨failure | value, last⟩ <;> rfl

theorem ne_outOfFuel_of_isOk {result : Except Failure α} (succeeds : result.isOk = true) :
    result ≠ .error .outOfFuel := by
  rintro rfl
  cases succeeds

variable {Memory : Type}

/-- The world after something has been noted. -/
def World.noting (world : World Memory) (notice : Notice) : World Memory :=
  { world with notices := notice :: world.notices }

namespace Query

@[simp] theorem run_note (notice : Notice) (world : World Memory) :
    (note notice).run world = (.ok (), world.noting notice) := rfl

@[simp] theorem run_engine (world : World Memory) :
    (engine : Query Memory Engine).run world = (.ok world.engine, world) := rfl

end Query

namespace Session

/-- The session with another world. -/
def inWorld (session : Session Memory) (world : World Memory) : Session Memory :=
  { session with world := world }

/-- The session after something has been noted. -/
def noting (session : Session Memory) (notice : Notice) : Session Memory :=
  session.inWorld (session.world.noting notice)

/-- The session with a line at hand; the state holds it if it is a text. -/
def withLine (session : Session Memory) : Line → Session Memory
  | .text content => { session with state := session.state.put State.lineName (.text content) }
  | .sentinel _ => session

/-- The session without a line at hand. -/
def withoutLine (session : Session Memory) : Session Memory :=
  { session with state := session.state.erase State.lineName }

end Session

namespace Procedure

@[simp] theorem run_lift (query : Query Memory α) (session : Session Memory) :
    (liftM query : Procedure Memory α).run session =
      ((query.run session.world).1, session.inWorld (query.run session.world).2) := rfl

theorem run_lift_of_run {query : Query Memory α} {session : Session Memory}
    {result : Except Failure α} {last : World Memory}
    (done : query.run session.world = (result, last)) :
    (liftM query : Procedure Memory α).run session = (result, session.inWorld last) := by
  rw [run_lift, done]

@[simp] theorem run_attempt (procedure : Procedure Memory α) (session : Session Memory) :
    (attempt procedure).run session =
      (.ok (procedure.run session).1, (procedure.run session).2) := rfl

@[simp] theorem run_note (notice : Notice) (session : Session Memory) :
    (note notice).run session = (.ok (), session.noting notice) := rfl

@[simp] theorem run_state (session : Session Memory) :
    (state : Procedure Memory State).run session = (.ok session.state, session) := rfl

@[simp] theorem run_modifyState (change : State → State) (session : Session Memory) :
    (modifyState change).run session =
      (.ok (), { session with state := change session.state }) := rfl

@[simp] theorem run_ofResult (result : Except Failure α) (session : Session Memory) :
    (ofResult result).run session = (result, session) := by
  cases result <;> rfl

end Procedure

end LineScript
