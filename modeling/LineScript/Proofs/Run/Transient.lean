import LineScript.Proofs.Run.Handing
import LineScript.Proofs.Value.Entries

/-!
# What a run does to its state

While a script runs the state holds the engine, and it holds the line at hand if that is a text, as
long as handlers leave these two entries alone (`LineScript.Run.script_context`). After a run that
has come to execute lines the state holds neither, however the run has ended. All other entries are
those of the calls of handlers: what no call touches is as it was before, in the same order
(`LineScript.Run.script_frame`).
-/

namespace LineScript

/-- What a state holds under the names of the engine, first the engine and then the line at hand. -/
def State.transient (state : State) : Option Value × Option Value :=
  (state.get? engineName, state.get? lineName)

namespace State

theorem transientNames_eq : transientNames = [engineName, lineName] := rfl

theorem engineName_ne_lineName : engineName ≠ lineName := by
  decide

theorem transient_put_engineName (state : State) (value : Value) :
    State.transient (state.put engineName value) = (some value, state.transient.2) := by
  simp [transient, Entries.get?_put_of_ne, engineName_ne_lineName.symm]

theorem transient_put_lineName (state : State) (value : Value) :
    State.transient (state.put lineName value) = (state.transient.1, some value) := by
  simp [transient, Entries.get?_put_of_ne, engineName_ne_lineName]

theorem transient_erase_lineName (state : State) :
    State.transient (state.erase lineName) = (state.transient.1, none) := by
  simp [transient, Entries.get?_erase_of_ne, engineName_ne_lineName]

theorem withoutTransient_eq_restrict (state : State) :
    state.withoutTransient = state.restrict fun name => !transientNames.contains name := rfl

@[simp] theorem transient_withoutTransient (state : State) :
    state.withoutTransient.transient = (none, none) := by
  simp [transient, withoutTransient_eq_restrict, Entries.get?_restrict, transientNames_eq]

theorem restrict_withoutTransient (state : State) {kept : String → Bool}
    (unkept : ∀ name ∈ transientNames, kept name = false) :
    Entries.restrict state.withoutTransient kept = state.restrict kept := by
  rw [withoutTransient_eq_restrict]
  apply Entries.restrict_restrict_of_subset
  intro name held
  have foreign : name ∉ transientNames := by
    intro member
    exact Bool.false_ne_true ((unkept name member).symm.trans held)
  simpa using foreign

/-- The names that are not those of the engine. -/
theorem not_transientNames : ∀ name ∈ transientNames, (!transientNames.contains name) = false := by
  decide

end State

namespace Line

/-- What the state holds of a line at hand. -/
def entry? : Line → Option Value
  | .text content => some (.text content)
  | .sentinel _ => none

/-- The control value that a line is. -/
def sentinel? : Line → Option Sentinel
  | .text _ => none
  | .sentinel mark => some mark

end Line

/-- Whether a handler replaces lines by fixed ones and calls no function. -/
def Handler.isLiteral : Handler → Bool
  | .line _ => true
  | .lines _ => true
  | .call _ => false
  | .bundled _ => false

/-- The actions that a line is offered to are those for the control value that it is. -/
theorem Action.accepts_iff {action : Action} {line : Line} :
    action.accepts line.toValue = true ↔ action.sentinel? = line.sentinel? := by
  cases line with
  | text content => exact Option.isNone_iff_eq_none
  | sentinel mark => exact beq_iff_eq

namespace Run

variable {Memory : Type} {host : Host Memory} {actions : List Action}

theorem transient_withLine {session : Session Memory} (line : Line)
    (unheld : session.state.transient.2 = none) :
    (session.withLine line).state.transient = (session.state.transient.1, line.entry?) := by
  cases line with
  | text content => exact State.transient_put_lineName session.state (.text content)
  | sentinel mark =>
      rw [Line.entry?, ← unheld]
      rfl

/-- If no line is at hand at first and calls leave the entries of the engine alone, then each call
finds its own line at hand, and whatever was held as the engine at first. -/
theorem Follows.transient {session : Session Memory} {turns : List (Turn Memory)} {last : State}
    {engine : Option Value} (follows : Follows host actions session turns last)
    (start : session.state.transient = (engine, none))
    (leaving : ∀ turn ∈ turns, ∀ call ∈ turn.invocations,
      call.after.state.transient = call.session.state.transient) :
    ∀ turn ∈ turns, ∀ call ∈ turn.invocations,
      call.session.state.transient = (engine, turn.line.entry?) := by
  have held := follows.invariant (fun state => state.transient = (engine, none))
    (fun line state => state.transient = (engine, line.entry?)) ?_ ?_ start ?_
  · exact held.1
  · intro line session between
    have unheld : session.state.transient.2 = none := by
      rw [between]
    rw [transient_withLine line unheld, between]
  · intro line session within
    exact (State.transient_erase_lineName session.state).trans (by rw [within])
  · intro turn taken call called within
    rw [leaving turn taken call called, within]

/-- What no call of a course touches is as it was before. -/
theorem Follows.restrict {session : Session Memory} {turns : List (Turn Memory)} {last : State}
    {kept : String → Bool} (follows : Follows host actions session turns last)
    (unkept : kept State.lineName = false)
    (leaving : ∀ turn ∈ turns, ∀ call ∈ turn.invocations,
      call.after.state.restrict kept = call.session.state.restrict kept) :
    last.restrict kept = session.state.restrict kept := by
  have held := follows.invariant
    (fun state => state.restrict kept = session.state.restrict kept)
    (fun _ state => state.restrict kept = session.state.restrict kept) ?_ ?_ rfl ?_
  · exact held.2.elim id id
  · intro line start between
    cases line with
    | text content =>
        exact (Entries.restrict_put_of_not_kept start.state unkept (.text content)).trans between
    | sentinel mark => exact between
  · intro line start within
    exact (Entries.restrict_erase_of_not_kept start.state unkept).trans within
  · intro turn taken call called within
    exact (leaving turn taken call called).trans within

theorem after_of_isLiteral {action : Action} (literal : action.handler.isLiteral = true)
    (arguments : List Value) (session : Session Memory) :
    (invocation host action arguments session).after = session := by
  unfold invocation
  cases handler : action.handler with
  | line content => rfl
  | lines contents => rfl
  | call function =>
      rw [handler] at literal
      cases literal
  | bundled function =>
      rw [handler] at literal
      cases literal

/-- What no call of a run touches is as it was before. -/
theorem closing_runCourse_restrict {fuel : Nat} {lines : List Line} {session : Session Memory}
    (kept : String → Bool) (unkept : ∀ name ∈ State.transientNames, kept name = false)
    (leaving : ∀ turn ∈ (runCourse host fuel actions lines session).turns,
      ∀ call ∈ turn.invocations,
        call.after.state.restrict kept = call.session.state.restrict kept) :
    (closing (runCourse host fuel actions lines session).session).state.restrict kept =
      session.state.restrict kept := by
  have engine : kept State.engineName = false := unkept _ (by decide)
  have line : kept State.lineName = false := unkept _ (by decide)
  have follows := course_follows host actions fuel (lines ++ [finishLine]) false
    (opening actions session)
  calc (closing (runCourse host fuel actions lines session).session).state.restrict kept
      = (runCourse host fuel actions lines session).session.state.restrict kept :=
        State.restrict_withoutTransient _ unkept
    _ = (opening actions session).state.restrict kept := follows.restrict line leaving
    _ = session.state.restrict kept :=
        Entries.restrict_put_of_not_kept session.state engine .engine

/-- A run that has come to execute lines leaves a state without the entries of the engine, however
it ends. Under names other than these, what no call of a handler touches is as it was before: the
entries have the same values and the same order. In particular, when only literal handlers are
called, the state is as it was before but for the entries of the engine. -/
theorem script_frame {fuel : Nat} {source : Value} {session : Session Memory} {lines : List Line}
    {world : World Memory}
    (approved : (approve host fuel source).run session.world = (.ok (actions, lines), world)) :
    ((script host fuel source).run session).2.state.transient = (none, none) ∧
    (∀ kept : String → Bool, (∀ name ∈ State.transientNames, kept name = false) →
      (∀ turn ∈ (runCourse host fuel actions lines (session.inWorld world)).turns,
        ∀ call ∈ turn.invocations,
          call.after.state.restrict kept = call.session.state.restrict kept) →
      ((script host fuel source).run session).2.state.restrict kept =
          session.state.restrict kept ∧
        ∀ name, kept name = true →
          ((script host fuel source).run session).2.state.get? name = session.state.get? name) ∧
    ((∀ turn ∈ (runCourse host fuel actions lines (session.inWorld world)).turns,
        ∀ call ∈ turn.invocations, call.action.handler.isLiteral = true) →
      ((script host fuel source).run session).2.state = session.state.withoutTransient) := by
  rw [script_run_of_approved approved]
  refine ⟨?_, ?_, ?_⟩
  · exact State.transient_withoutTransient _
  · intro kept unkept leaving
    have same := closing_runCourse_restrict kept unkept leaving
    refine ⟨same, ?_⟩
    intro name held
    have found := congrArg (fun entries => Entries.get? entries name) same
    simp only [Entries.get?_restrict, held, ↓reduceIte] at found
    exact found
  · intro literal
    have follows := course_follows host actions fuel (lines ++ [finishLine]) false
      (opening actions (session.inWorld world))
    have untouched : ∀ turn ∈ (runCourse host fuel actions lines (session.inWorld world)).turns,
        ∀ call ∈ turn.invocations, call.after = call.session := by
      intro turn taken call called
      obtain ⟨-, -, made⟩ := follows.invocations taken called
      rw [made]
      exact after_of_isLiteral (literal turn taken call called) call.arguments call.session
    have same := closing_runCourse_restrict (fun name => !State.transientNames.contains name)
      State.not_transientNames fun turn taken call called => by
        rw [untouched turn taken call called]
    have idle := State.restrict_withoutTransient
      (runCourse host fuel actions lines (session.inWorld world)).session.state
      State.not_transientNames
    exact idle.symm.trans same

/-- Actions by which `outer` expands to `inner`, and `inner` to a line that no action matches. -/
def unfolding : List Action :=
  [.ofName "outer" (.lines [.text "inner"]) false, .ofName "inner" (.line (.text "ghost")) false]

/-- A session whose state has an entry of its own between entries under the names of the engine. -/
def crowded : Session Unit :=
  { Session.ofActions unfolding with
    state := [("LINE", .null), ("own", .int 1), ("ottomaton", .text "held")] }

/-- A run that fails in an expansion leaves the other entry alone in the state. -/
theorem script_frame_unfolding :
    ((script Host.ofNames 5 (.list [.text "outer"])).run crowded).1.isOk = false ∧
      ((script Host.ofNames 5 (.list [.text "outer"])).run crowded).2.state =
        [("own", .int 1)] := by
  have approved : (approve Host.ofNames 5 (.list [.text "outer"])).run crowded.world =
      (.ok (unfolding, [.text "outer"]), crowded.world) := by
    rfl
  have literal : ∀ turn ∈ (runCourse Host.ofNames 5 unfolding [.text "outer"]
      (crowded.inWorld crowded.world)).turns,
      ∀ call ∈ turn.invocations, call.action.handler.isLiteral = true := by
    decide +kernel
  refine ⟨by decide +kernel, ((script_frame approved).2.2 literal).trans ?_⟩
  simp [crowded, State.withoutTransient, State.transientNames, State.engineName, State.lineName]

/-- A run comes to a course in which every handler finds its context in the state. If the state has
no line at hand before the run, and handlers leave the entries of the engine alone, then each call
finds the engine, and it finds the very line that is executed if this is a text and no line
otherwise. Actions for a control value handle that control value alone, and all others handle text
lines alone. -/
theorem script_context {fuel : Nat} {source : Value} {session : Session Memory} {lines : List Line}
    {world : World Memory}
    (approved : (approve host fuel source).run session.world = (.ok (actions, lines), world))
    (unheld : session.state.get? State.lineName = none)
    (leaving : ∀ turn ∈ (runCourse host fuel actions lines (session.inWorld world)).turns,
      ∀ call ∈ turn.invocations, call.after.state.transient = call.session.state.transient) :
    (script host fuel source).run session =
        ((runCourse host fuel actions lines (session.inWorld world)).result,
          closing (runCourse host fuel actions lines (session.inWorld world)).session) ∧
      ∀ turn ∈ (runCourse host fuel actions lines (session.inWorld world)).turns,
        ∀ call ∈ turn.invocations,
          call.session.state.transient = (some .engine, turn.line.entry?) ∧
            call.action.sentinel? = turn.line.sentinel? := by
  have follows := course_follows host actions fuel (lines ++ [finishLine]) false
    (opening actions (session.inWorld world))
  have start : (opening actions (session.inWorld world)).state.transient =
      (some .engine, none) := by
    have opened := State.transient_put_engineName session.state .engine
    unfold State.transient at opened ⊢
    rw [unheld] at opened
    exact opened
  have found := follows.transient start leaving
  refine ⟨script_run_of_approved approved, ?_⟩
  intro turn taken call called
  obtain ⟨-, accepted, -⟩ := follows.invocations taken called
  exact ⟨found turn taken call called, Action.accepts_iff.mp accepted⟩

/-- Actions by which `macro` expands to `leaf` and to a line that names a missing entry, and FINISH
is handled. -/
def tidying : List Action :=
  [.ofName "macro" (.lines [.text "leaf", .text "X"]) false,
    .ofName "leaf" (.call ⟨0, "leaf"⟩) false, .ofName "X" (.call ⟨1, "X"⟩) true,
    .ofSentinel .finish (.call ⟨2, "tidy"⟩)]

theorem after_of_mem_tidying {action : Action} (member : action ∈ tidying) (arguments : List Value)
    (session : Session Unit) :
    (invocation Host.ofNames action arguments session).after = session := by
  simp only [tidying, List.mem_cons, List.not_mem_nil, or_false] at member
  rcases member with rfl | rfl | rfl | rfl <;> rfl

/-- The handlers of the macro, of its first line and of the cleanup after its second find their
context. -/
theorem script_context_tidying :
    ((runCourse Host.ofNames 5 tidying [.text "macro"] (Session.ofActions tidying)).turns.map
        fun turn => (turn.line, turn.invocations.length)) =
        [(.text "macro", 1), (.text "leaf", 1), (.text "X", 0), (finishLine, 1)] ∧
      ∀ turn ∈ (runCourse Host.ofNames 5 tidying [.text "macro"] (Session.ofActions tidying)).turns,
        ∀ call ∈ turn.invocations,
          call.session.state.transient = (some .engine, turn.line.entry?) ∧
            call.action.sentinel? = turn.line.sentinel? := by
  have approved : (approve Host.ofNames 5 (.list [.text "macro"])).run
      (Session.ofActions tidying).world =
        (.ok (tidying, [.text "macro"]), (Session.ofActions tidying).world) := by
    rfl
  have follows := course_follows Host.ofNames tidying 5 ([.text "macro"] ++ [finishLine]) false
    (opening tidying (Session.ofActions tidying))
  have leaving : ∀ turn ∈ (runCourse Host.ofNames 5 tidying [.text "macro"]
      (Session.ofActions tidying)).turns,
      ∀ call ∈ turn.invocations, call.after.state.transient = call.session.state.transient := by
    intro turn taken call called
    obtain ⟨member, -, made⟩ := follows.invocations taken called
    have after := after_of_mem_tidying member call.arguments call.session
    rw [← made] at after
    rw [after]
  refine ⟨?_, (script_context approved rfl leaving).2⟩
  decide +kernel

end Run

end LineScript
