import LineScript.Proofs.Run.Transient

/-!
# Runs inside handlers

A handler may run a script on the state that it has been given. Such a run ends like any other: it
takes the entries of the engine out of the state, and these were the entries of the outer run. So
what the handler, the later calls for its line and the later lines of the outer run find is what the
inner run has left. Only a run that is refused before lines are executed leaves these entries
(`LineScript.Run.script_inside_handler`).
-/

namespace LineScript.Run

variable {Memory : Type} {host : Host Memory} {actions : List Action}

theorem script_transient_of_refused {fuel : Nat} {source : Value} {session : Session Memory}
    {failure : Failure}
    (refused : ((approve host fuel source).run session.world).1 = .error failure) :
    ((script host fuel source).run session).2.state.transient = session.state.transient := by
  rcases approval : (approve host fuel source).run session.world with ⟨result, world⟩
  rw [approval] at refused
  subst refused
  rw [script_run_of_refused approval]
  rfl

theorem script_transient_of_approved {fuel : Nat} {source : Value} {session : Session Memory}
    {approval : List Action × List Line}
    (approved : ((approve host fuel source).run session.world).1 = .ok approval) :
    ((script host fuel source).run session).2.state.transient = (none, none) := by
  obtain ⟨actions, lines⟩ := approval
  rcases asked : (approve host fuel source).run session.world with ⟨result, world⟩
  rw [asked] at approved
  subst approved
  rw [script_run_of_approved asked]
  exact State.transient_withoutTransient _

/-- A run keeps the entries of the engine exactly when it is refused, or when there are none. -/
theorem script_transient_iff (host : Host Memory) (fuel : Nat) (source : Value)
    (session : Session Memory) :
    ((script host fuel source).run session).2.state.transient = session.state.transient ↔
      (∃ failure, ((approve host fuel source).run session.world).1 = .error failure) ∨
        session.state.transient = (none, none) := by
  cases approval : ((approve host fuel source).run session.world).1 with
  | error failure =>
      have kept := script_transient_of_refused approval
      exact ⟨fun _ => Or.inl ⟨failure, rfl⟩, fun _ => kept⟩
  | ok approval =>
      have taken := script_transient_of_approved approval
      rw [taken]
      constructor
      · intro none
        exact Or.inr none.symm
      · rintro (⟨failure, refused⟩ | none)
        · cases refused
        · exact none.symm

/-- Behind a call the later calls for its line find the entries of the engine as it has left them,
and those for later lines find the same as the engine, with their own line at hand, as long as they
leave these entries alone. -/
theorem transient_behind_call {fuel : Nat} {lines : List Line} {session : Session Memory}
    {front back : List (Turn Memory)} {turn : Turn Memory} {before later : List (Invocation Memory)}
    {call : Invocation Memory}
    (turns : (runCourse host fuel actions lines session).turns = front ++ turn :: back)
    (calls : turn.invocations = before ++ call :: later)
    (leaving : ∀ other ∈ later ++ back.flatMap fun next => next.invocations,
      other.after.state.transient = other.session.state.transient) :
    (∀ other ∈ later, other.session.state.transient = call.after.state.transient) ∧
      ∀ next ∈ back, ∀ other ∈ next.invocations,
        other.session.state.transient = (call.after.state.transient.1, next.line.entry?) := by
  have follows := course_follows host actions fuel (lines ++ [finishLine]) false
    (opening actions session)
  have taken : turn ∈ (runCourse host fuel actions lines session).turns := by
    rw [turns]
    exact List.mem_append_right front List.mem_cons_self
  have handed := follows.handedOn taken
  rw [calls] at handed
  have inside := handed.behind.invariant
    (fun state => state.transient = call.after.state.transient) rfl fun other member found =>
      (leaving other (List.mem_append_left _ member)).trans found
  refine ⟨inside.1, ?_⟩
  rcases follows.behind turns with rfl | rest
  · exact List.forall_mem_nil _
  · apply rest.transient
    · have left := State.transient_erase_lineName turn.after.state
      rw [inside.2] at left
      exact left
    · intro next member other called
      exact leaving other (List.mem_append_right later
        (List.mem_flatMap.mpr ⟨next, member, called⟩))

/-- When a handler runs a script on the state and then leaves the entries of the engine alone, these
are left as they were before the inner run exactly if this is refused before lines are executed, or
if there were none; an inner run that executes lines leaves none. What is left the later calls for
the same line find, and those for later lines find it as the engine, with their own line at hand, as
long as they leave it alone. -/
theorem script_inside_handler {inner : Host Memory} {fuel depth : Nat} {source : Value}
    {lines : List Line} {session start : Session Memory} {front back : List (Turn Memory)}
    {turn : Turn Memory} {before later : List (Invocation Memory)} {call : Invocation Memory}
    (turns : (runCourse host fuel actions lines session).turns = front ++ turn :: back)
    (calls : turn.invocations = before ++ call :: later)
    (nested : call.after.state.transient =
      ((script inner depth source).run start).2.state.transient)
    (leaving : ∀ other ∈ later ++ back.flatMap fun next => next.invocations,
      other.after.state.transient = other.session.state.transient) :
    ∃ left, ((script inner depth source).run start).2.state.transient = left ∧
      (left = start.state.transient ↔
        (∃ failure, ((approve inner depth source).run start.world).1 = .error failure) ∨
          start.state.transient = (none, none)) ∧
      (∀ approval, ((approve inner depth source).run start.world).1 = .ok approval →
        left = (none, none)) ∧
      (∀ other ∈ later, other.session.state.transient = left) ∧
      ∀ next ∈ back, ∀ other ∈ next.invocations,
        other.session.state.transient = (left.1, next.line.entry?) := by
  refine ⟨call.after.state.transient, nested.symm, ?_, ?_,
    transient_behind_call turns calls leaving⟩
  · rw [nested]
    exact script_transient_iff inner depth source start
  · intro approval approved
    exact nested.trans (script_transient_of_approved approved)

/-- A host like `Host.ofNames`, but that the function `nest` runs a script on the state. -/
def reentering : Host Unit :=
  { Host.ofNames with
    callHandler function _ := do
      if function.name = "nest" then script Host.ofNames 5 (.list [.text "leaf"])
      return .ready .null }

/-- Actions by which `outer` is handled twice, at first by `nest`. -/
def twofold : List Action :=
  [.ofName "outer" (.call ⟨0, "nest"⟩) false, .ofName "outer" (.call ⟨1, "later"⟩) false,
    .ofName "leaf" (.call ⟨2, "leaf"⟩) false]

/-- Whether a state holds the engine, and whether it holds a line at hand. -/
def presence (state : State) : Bool × Bool :=
  (state.transient.1.isSome, state.transient.2.isSome)

/-- An inner run that succeeds takes the engine and the line at hand from the handlers of the outer
run. -/
theorem presence_lost_reentering :
    ((script reentering 5 (.list [.text "outer", .text "leaf"])).run
        (Session.ofActions twofold)).1.isOk = true ∧
      ((runCourse reentering 5 twofold [.text "outer", .text "leaf"]
        (Session.ofActions twofold)).turns.map fun turn => turn.invocations.map fun call =>
          (presence call.session.state, presence call.after.state)) =
        [[((true, true), (false, false)), ((false, false), (false, false))],
          [((false, true), (false, true))], []] := by
  decide +kernel

theorem after_nest {action : Action} (nests : action.handler = .call ⟨0, "nest"⟩)
    (arguments : List Value) (session : Session Unit) :
    (invocation reentering action arguments session).after =
      ((script Host.ofNames 5 (.list [.text "leaf"])).run session).2 := by
  unfold invocation
  rw [nests]
  rcases inner : (script Host.ofNames 5 (.list [.text "leaf"])).run session with
    ⟨failure | value, last⟩
  · have called : (reentering.callHandler ⟨0, "nest"⟩ arguments).run session =
        (.error failure, last) := run_bind_of_error inner
    exact congrArg Prod.snd (run_bind_of_error called)
  · have called : (reentering.callHandler ⟨0, "nest"⟩ arguments).run session =
        (.ok (.ready .null), last) := run_bind_of_ok inner
    exact congrArg Prod.snd (run_bind_of_ok called)

theorem after_of_ne_nest {action : Action} {function : Callable}
    (calls : action.handler = .call function) (other : function.name ≠ "nest")
    (arguments : List Value) (session : Session Unit) :
    (invocation reentering action arguments session).after = session := by
  have called : (reentering.callHandler function arguments).run session =
      (.ok (.ready .null), session) := by
    unfold reentering
    simp only [other]
    rfl
  unfold invocation
  rw [calls]
  exact congrArg Prod.snd (run_bind_of_ok called)

/-- The calls of a run of `outer` and `leaf`: the first runs a script, the others leave the state as
it is. -/
theorem turns_reentering :
    ∃ first second third nest later leaf,
      (runCourse reentering 5 twofold [.text "outer", .text "leaf"]
        (Session.ofActions twofold)).turns = [first, second, third] ∧
      second.line = .text "leaf" ∧
      first.invocations = [nest, later] ∧ second.invocations = [leaf] ∧ third.invocations = [] ∧
      ((approve Host.ofNames 5 (.list [.text "leaf"])).run nest.session.world).1.isOk = true ∧
      nest.after = ((script Host.ofNames 5 (.list [.text "leaf"])).run nest.session).2 ∧
      later.after = later.session ∧ leaf.after = leaf.session := by
  have handlers : ((runCourse reentering 5 twofold [.text "outer", .text "leaf"]
      (Session.ofActions twofold)).turns.map fun turn => (turn.line,
        turn.invocations.map fun call => (call.action.handler,
          ((approve Host.ofNames 5 (.list [.text "leaf"])).run call.session.world).1.isOk))) =
      [(.text "outer", [(.call ⟨0, "nest"⟩, true), (.call ⟨1, "later"⟩, true)]),
        (.text "leaf", [(.call ⟨2, "leaf"⟩, true)]), (finishLine, [])] := by
    decide +kernel
  have follows := course_follows reentering twofold 5 ([.text "outer", .text "leaf"] ++ [finishLine])
    false (opening twofold (Session.ofActions twofold))
  have made {turn : Turn Unit} (taken : turn ∈ (runCourse reentering 5 twofold
      [.text "outer", .text "leaf"] (Session.ofActions twofold)).turns) {call : Invocation Unit}
      (called : call ∈ turn.invocations) :
      call.after = (invocation reentering call.action call.arguments call.session).after :=
    congrArg Invocation.after (follows.invocations taken called).2.2
  simp only [List.map_eq_cons_iff, List.map_eq_nil_iff, Prod.mk.injEq] at handlers
  obtain ⟨first, _, turns, ⟨-, nest, _, own, ⟨nests, passes⟩, later, _, rfl, ⟨goesOn, -⟩, rfl⟩,
    second, _, rfl, ⟨text, leaf, _, inner, ⟨leaves, -⟩, rfl⟩, third, _, rfl, ⟨-, last⟩, rfl⟩ :=
    handlers
  rw [turns] at made
  refine ⟨first, second, third, nest, later, leaf, turns, text, own, inner, last, passes, ?_, ?_,
    ?_⟩
  · rw [made List.mem_cons_self (by rw [own]; exact List.mem_cons_self)]
    exact after_nest nests nest.arguments nest.session
  · rw [made List.mem_cons_self (by simp [own])]
    exact after_of_ne_nest goesOn (by decide) later.arguments later.session
  · rw [made (List.mem_cons_of_mem first List.mem_cons_self) (by simp [inner])]
    exact after_of_ne_nest leaves (by decide) leaf.arguments leaf.session

/-- The second handler of the line that runs a script finds neither the engine nor the line at hand,
and that of the line behind finds its line alone. -/
theorem script_inside_handler_reentering :
    ∃ first second third nest later leaf,
      (runCourse reentering 5 twofold [.text "outer", .text "leaf"]
        (Session.ofActions twofold)).turns = [first, second, third] ∧
      first.invocations = [nest, later] ∧ second.invocations = [leaf] ∧
      later.session.state.transient = (none, none) ∧
      leaf.session.state.transient = (none, some (.text "leaf")) := by
  obtain ⟨first, second, third, nest, later, leaf, turns, text, own, inner, last, passes, nested,
    laterIdle, leafIdle⟩ := turns_reentering
  have front : first.invocations = [] ++ nest :: [later] := own
  have start : (runCourse reentering 5 twofold [.text "outer", .text "leaf"]
      (Session.ofActions twofold)).turns = [] ++ first :: [second, third] := turns
  have leaving : ∀ other ∈ [later] ++ [second, third].flatMap fun next => next.invocations,
      other.after.state.transient = other.session.state.transient := by
    simp [inner, last, laterIdle, leafIdle]
  obtain ⟨left, -, -, approved, same, behind⟩ := script_inside_handler start front
    (congrArg (fun session : Session Unit => session.state.transient) nested) leaving
  cases approval : ((approve Host.ofNames 5 (.list [.text "leaf"])).run nest.session.world).1 with
  | error failure =>
      rw [approval] at passes
      cases passes
  | ok answer =>
      obtain rfl := approved answer approval
      refine ⟨first, second, third, nest, later, leaf, turns, own, inner, ?_, ?_⟩
      · exact same later List.mem_cons_self
      · have found := behind second List.mem_cons_self leaf (by simp [inner])
        rw [text] at found
        exact found

end LineScript.Run
