import LineScript.Proofs.Bundled.Assignment
import LineScript.Proofs.Run.Alone

/-!
# Scripts of assignments

On an engine with the bundled actions a script of assignments to names comes to the values that it
assigns, one after the other, and to nothing else (`LineScript.Run.script_assignments`).
-/

namespace LineScript

open Reference (IsName quote)

namespace State

/-- The entries of the engine do not count for what a text stands for, unless it is the name under
which the line at hand is kept. -/
theorem dereference_withoutTransient (state : State) {content : String}
    (other : content ≠ lineName) :
    state.withoutTransient.dereference (.text content) = state.dereference (.text content) := by
  cases quoted : Reference.unquote? content with
  | some inside => simp only [dereference, quoted]
  | none =>
      by_cases named : Reference.isReference content = true
      · have engine : content ≠ engineName := by
          rintro rfl
          exact absurd named (by decide)
        have same : state.withoutTransient.get? content = state.get? content := by
          rw [withoutTransient_eq_restrict, Entries.get?_restrict, if_pos]
          simp [transientNames_eq, engine, other]
        simp only [dereference, quoted, named, same]
      · simp only [dereference, quoted, named, Bool.false_eq_true, ↓reduceIte]

/-- A state without entries of the engine is left as it is when they are taken out. -/
theorem withoutTransient_of_transient {state : State} (clear : state.transient = (none, none)) :
    state.withoutTransient = state := by
  obtain ⟨engine, line⟩ := Prod.mk.inj clear
  refine List.filter_eq_self.mpr fun entry member => ?_
  have absent {name : String} (missing : state.get? name = none) : entry.1 ≠ name := by
    rintro rfl
    exact Entries.get?_eq_none_iff.mp missing (List.mem_map_of_mem member)
  simp [transientNames_eq, absent engine, absent line]

/-- A value under a name that is not the engine's is put among the entries that are not. -/
theorem withoutTransient_put (state : State) {name : String} (other : name ∉ transientNames)
    (value : Value) :
    State.withoutTransient (state.put name value) = state.withoutTransient.put name value := by
  rw [withoutTransient_eq_restrict, withoutTransient_eq_restrict]
  refine Entries.restrict_put_of_kept state ?_ value
  simpa using other

theorem withoutTransient_put_lineName (state : State) (value : Value) :
    State.withoutTransient (state.put lineName value) = state.withoutTransient := by
  rw [withoutTransient_eq_restrict, withoutTransient_eq_restrict]
  exact Entries.restrict_put_of_not_kept state (not_transientNames lineName (by decide)) value

theorem withoutTransient_put_engineName (state : State) (value : Value) :
    State.withoutTransient (state.put engineName value) = state.withoutTransient := by
  rw [withoutTransient_eq_restrict, withoutTransient_eq_restrict]
  exact Entries.restrict_put_of_not_kept state (not_transientNames engineName (by decide)) value

theorem withoutTransient_erase_lineName (state : State) :
    State.withoutTransient (state.erase lineName) = state.withoutTransient := by
  rw [withoutTransient_eq_restrict, withoutTransient_eq_restrict]
  exact Entries.restrict_erase_of_not_kept state (not_transientNames lineName (by decide))

end State

namespace Run

open Bundled.Variables (Fits lineOf)

variable {Memory : Type} {host : Host Memory} {options : Options} {name written : String}

/-- Whether a line can assign to a name: the line at hand is not kept under it, and it does not
make the line a comment. -/
structure Assignable (options : Options) (name : String) : Prop where
  named : IsName name.toList
  own : name ≠ State.lineName
  kept : options.common.truthy = true → name ≠ "REM"

theorem Assignable.not_transient (assignable : Assignable options name) :
    name ∉ State.transientNames := by
  have engine : name ≠ State.engineName := by
    rintro rfl
    exact absurd ((Reference.isParts_iff _).mpr assignable.named) (by decide)
  simp [State.transientNames_eq, engine, assignable.own]

/-- An assignment is taken by the action for it, with the name and what is written. -/
theorem handledBy_lineOf (assignable : Assignable options name) (fits : Fits written.toList) :
    HandledBy host (Engine.bundledActions options) (lineOf name written)
      Bundled.Variables.action [.text name, .text written] := by
  have named := assignable.named
  have whole := Bundled.Variables.toList_lineOf name written
  obtain ⟨pause, waiting⟩ := Bundled.Variables.groups?_others named written.toList
  rw [← whole] at pause waiting
  refine ⟨⟨Engine.firstActions options, [Bundled.Pause.action, Bundled.Keystroke.action], rfl,
    List.forall_mem_append.mpr ⟨takesAtOnce_firstActions fun common => ?_, ?_⟩⟩, ?_⟩
  · refine Bundled.groups?_comments_eq_none ?_
    rw [whole]
    refine Bundled.Variables.not_skipped named ?_ _
    exact fun same => assignable.kept common (String.toList_injective same)
  · exact List.forall_mem_cons.mpr ⟨takesAtOnce_none rfl rfl pause,
      List.forall_mem_singleton.mpr (takesAtOnce_none rfl rfl waiting)⟩
  · have unbroken : '\n' ∉ name.toList ++ (" = ".toList ++ written.toList) := by
      simp [named.ne_break, fits.unbroken.2]
    have found := Bundled.Variables.groups?_assignment unbroken fits.single
    rw [← whole] at found
    have taken : TakesAtOnce host Bundled.Variables.action (lineOf name written)
        (some ([name.toList, written.toList].map fun arg => .text (String.ofList arg))) :=
      takesAtOnce_some rfl rfl found
    simpa using taken

/-- The handler of assignments puts what a value stands for under a name. -/
theorem perform_assign_run (host : Host Memory) (name : String) {session : Session Memory}
    {value kept : Value} (stands : session.state.dereference value = .ok kept) :
    (Bundled.perform host .assign [.text name, value]).run session =
      (.ok .null, { session with state := session.state.put name kept }) := by
  have assigned : (Bundled.Variables.assign name value).run session =
      (.ok (), { session with state := session.state.put name kept }) := by
    unfold Bundled.Variables.assign
    rw [run_bind_of_ok (Procedure.run_state session)]
    simp only [stands, Procedure.run_modifyState]
  unfold Bundled.perform
  rw [run_bind_of_ok assigned]
  rfl

/-- One assignment puts the value under its name. -/
theorem turnOf_lineOf (host : Host Memory) (assignable : Assignable options name)
    (fits : Fits written.toList) (other : written ≠ State.lineName) {session : Session Memory}
    {value : Value}
    (stands : session.state.withoutTransient.dereference (.text written) = .ok value)
    (waiting : List Line) :
    let turn := turnOf host (Engine.bundledActions options) (.text (lineOf name written)) waiting
      session
    turn.result = .ok .proceed ∧
      turn.after.withoutLine.state.withoutTransient =
        session.state.withoutTransient.put name value ∧
      turn.after.withoutLine.world.memory = session.world.memory := by
  have handled : HandledBy host (Engine.bundledActions options) _ _ _ :=
    handledBy_lineOf assignable fits
  let line := Line.text (lineOf name written)
  let start := (session.withLine line).noting (.executing line)
  have clear : start.state.withoutTransient = session.state.withoutTransient :=
    State.withoutTransient_put_lineName session.state _
  have meaning : start.state.dereference (.text written) = .ok value := by
    rw [← State.dereference_withoutTransient _ other, clear, stands]
  have given : argumentsFor Bundled.Variables.action line [.text name, .text written]
      (session.withLine line).state = .ok [.text name, .text written] := rfl
  obtain ⟨-, result, after⟩ :=
    handled.execution_of_returned given (perform_assign_run host name meaning)
  refine ⟨result, ?_, ?_⟩
  · change State.withoutTransient (Entries.erase (execution host _ _ _).after.state _) = _
    rw [State.withoutTransient_erase_lineName, after]
    change State.withoutTransient (start.state.put name value) = _
    rw [State.withoutTransient_put _ assignable.not_transient, clear]
  · change (execution host _ _ _).after.world.memory = _
    rw [after]
    rfl

/-- What assignments make of a state: each puts what is written, or the value it stands for, under
its name. -/
inductive Assigns : State → List (String × String) → State → Prop where
  | nil (state : State) : Assigns state [] state
  | cons {state last : State} {name written : String} {value : Value}
      {others : List (String × String)} :
      state.dereference (.text written) = .ok value → Assigns (state.put name value) others last →
      Assigns state ((name, written) :: others) last

/-- Whether some assignments are lines of their own that assign to names. -/
def AllAssignable (options : Options) (assignments : List (String × String)) : Prop :=
  ∀ pair ∈ assignments, Assignable options pair.1 ∧ Fits pair.2.toList ∧ pair.2 ≠ State.lineName

/-- The lines of some assignments. -/
def assignmentTexts (assignments : List (String × String)) : List String :=
  assignments.map fun pair => lineOf pair.1 pair.2

/-- The course of some assignments leaves what they make of the state. -/
theorem course_assignments (host : Host Memory) {assignments : List (String × String)}
    {session : Session Memory} {last : State} {fuel : Nat} (enough : assignments.length < fuel)
    (proper : AllAssignable options assignments)
    (assigns : Assigns session.state.withoutTransient assignments last) :
    ∃ turns left, course host (Engine.bundledActions options) fuel
        ((assignmentTexts assignments).map .text ++ [finishLine]) false session =
          ⟨turns, .ok (), left⟩ ∧
      left.state.withoutTransient = last ∧ left.world.memory = session.world.memory := by
  generalize start : session.state.withoutTransient = state at assigns
  induction assigns generalizing session fuel with
  | nil state =>
      obtain ⟨fuel, rfl⟩ := Nat.exists_eq_succ_of_ne_zero (Nat.ne_zero_of_lt enough)
      refine ⟨_, _,
        course_finishLine_of_texts Engine.sentinel?_of_mem_bundledActions fuel session, ?_, rfl⟩
      rw [← start]
      exact State.withoutTransient_erase_lineName session.state
  | @cons state last name written value others stands assigns ih =>
      obtain ⟨fuel, rfl⟩ := Nat.exists_eq_succ_of_ne_zero (Nat.ne_zero_of_lt enough)
      obtain ⟨⟨assignable, fits, other⟩, rest⟩ := List.forall_mem_cons.mp proper
      obtain ⟨proceeds, after, memory⟩ := turnOf_lineOf host assignable fits other
        (start ▸ stands) ((assignmentTexts others).map .text ++ [finishLine])
      rw [start] at after
      obtain ⟨turns, left, further, final, kept⟩ := ih (Nat.lt_of_succ_lt_succ enough) rest after
      have whole :=
        (course_cons_of_ok proceeds fuel false).trans (congrArg (Course.behind · _) further)
      exact ⟨_, left, whole, final, kept.trans memory⟩

/-- **Scripts of assignments.** On an engine with the bundled actions a script of assignments to
names, each in a line of its own, leaves exactly what the assignments make of the state, and the
memory of the host as it was. -/
theorem script_assignments {session : Session Memory} {fuel : Nat} {source : Value}
    {assignments : List (String × String)} {last : State}
    (own : session.world.engine.IsOf (Engine.bundledActions options)) (enough : 5 < fuel)
    (few : assignments.length < fuel) (proper : AllAssignable options assignments)
    (consists : Script.ConsistsOf source ((assignmentTexts assignments).map .text))
    (assigns : Assigns session.state.withoutTransient assignments last) :
    ∃ world : World Memory, (script host fuel source).run session = (.ok (), ⟨last, world⟩) ∧
      world.memory = session.world.memory := by
  have plain : ∀ content ∈ assignmentTexts assignments,
      content ≠ "" ∧ Line.ofText content = .text content := by
    intro content member
    obtain ⟨pair, -, rfl⟩ := List.mem_map.mp member
    exact ⟨Bundled.Variables.lineOf_ne_empty pair.1 pair.2,
      Bundled.Variables.ofText_lineOf pair.1 pair.2⟩
  have handled : ∀ content ∈ assignmentTexts assignments, ∃ action taken,
      HandledBy host (Engine.bundledActions options) content action taken := by
    intro content member
    obtain ⟨pair, listed, rfl⟩ := List.mem_map.mp member
    obtain ⟨assignable, fits, -⟩ := proper pair listed
    exact ⟨_, _, handledBy_lineOf assignable fits⟩
  have room := Nat.lt_of_le_of_lt (Engine.length_bundledActions_le options) enough
  obtain ⟨world, approved, -, memory⟩ := own.approve_texts_run room consists plain handled
  have start : (opening (Engine.bundledActions options)
      (session.inWorld world)).state.withoutTransient = session.state.withoutTransient :=
    State.withoutTransient_put_engineName session.state .engine
  obtain ⟨turns, left, course, final, kept⟩ := course_assignments host few proper
    (start.symm ▸ assigns)
  have run := script_run_of_approved approved
  unfold runCourse at run
  rw [course] at run
  refine ⟨left.world, run.trans ?_, kept.trans memory⟩
  unfold closing
  rw [final]

/-- **A literal is kept.** On an engine with the bundled actions, a line that assigns a literal
between double quotes to a name keeps exactly the text between the quotes under the name, whatever
quotes, names or signs of comments are in it, and every other entry as it was; a line behind it that
assigns the name to another one keeps the text there too. The text is one line without ` = `, and a
name is not the one of the line at hand nor, where comments are skipped, the word REM. -/
theorem script_literal (host : Host Memory) {session : Session Memory} {fuel : Nat}
    {copy content : String} (own : session.world.engine.IsOf (Engine.bundledActions options))
    (enough : 5 < fuel) (clear : session.state.transient = (none, none))
    (assignable : Assignable options name) (copied : Assignable options copy)
    (unbroken : Text.Unbroken content.toList) (single : ¬" = ".toList <:+: content.toList) :
    (∃ world : World Memory,
      (script host fuel (.text (name ++ " = \"" ++ content ++ "\""))).run session =
        (.ok (), ⟨session.state.put name (.text content), world⟩) ∧
      world.memory = session.world.memory) ∧
    (session.state.put name (.text content)).get? name = some (.text content) ∧
    (∀ other, other ≠ name →
      (session.state.put name (.text content)).get? other = session.state.get? other) ∧
    ∀ source, Script.ConsistsOf source
        [.text (name ++ " = \"" ++ content ++ "\""), .text (copy ++ " = " ++ name)] →
      ∃ world : World Memory, (script host fuel source).run session =
          (.ok (), ⟨(session.state.put name (.text content)).put copy (.text content), world⟩) ∧
        world.memory = session.world.memory := by
  have first : name ++ " = \"" ++ content ++ "\"" = lineOf name (quote content) := by
    apply String.toList_injective
    simp [lineOf, quote]
  have start := State.withoutTransient_of_transient clear
  have literal (state : State) : state.dereference (.text (quote content)) = .ok (.text content) :=
    State.dereference_of_quoted state (Or.inl rfl)
  have fits := Bundled.Variables.fits_quote unbroken single
  have quoted : Assignable options name ∧ Fits (quote content).toList ∧
      quote content ≠ State.lineName := by
    refine ⟨assignable, fits, fun same => ?_⟩
    have begins := congrArg (fun text => text.toList.head?) same
    simp [Reference.toList_quote, State.lineName] at begins
  rw [first]
  refine ⟨?_, Entries.get?_put_self _ _ _, fun other => Entries.get?_put_of_ne _ _, ?_⟩
  · have single : Script.ConsistsOf (.text (lineOf name (quote content)))
        ((assignmentTexts [(name, quote content)]).map .text) := by
      have cut := Script.ConsistsOf.text
        (.last (Bundled.Variables.unbroken_lineOf assignable.named fits))
      rw [List.map_singleton, String.ofList_toList] at cut
      exact cut
    have few : [(name, quote content)].length < fuel :=
      Nat.lt_of_le_of_lt (Nat.le_add_left 1 4) enough
    refine script_assignments own enough few (List.forall_mem_singleton.mpr quoted) single ?_
    rw [start]
    exact .cons (literal _) (.nil _)
  · intro source consists
    have proper : AllAssignable options [(name, quote content), (copy, name)] :=
      List.forall_mem_cons.mpr ⟨quoted, List.forall_mem_singleton.mpr
        ⟨copied, Bundled.Variables.fits_of_isName assignable.named, assignable.own⟩⟩
    have few : [(name, quote content), (copy, name)].length < fuel :=
      Nat.lt_of_le_of_lt (Nat.le_add_left 2 3) enough
    refine script_assignments own enough few proper consists ?_
    rw [start]
    refine .cons (literal _) (.cons ?_ (.nil _))
    rw [State.dereference_of_name _ assignable.named (Or.inl rfl), Entries.get?_put_self]

theorem assignable_of_ne {name : String} (named : Reference.isParts name.toList = true)
    (line : name ≠ State.lineName) (remark : name ≠ "REM") : Assignable options name :=
  ⟨(Reference.isParts_iff _).mp named, line, fun _ => remark⟩

/-- Quotes, names and signs of comments in a literal are kept, and assigned on. -/
theorem script_literal_signs :
    (∃ world, (script Host.ofNames 6 (.text "NOTE_B1 = \"# REM \"COPY\" =\"")).run Session.bundled =
      (.ok (), ⟨[("NOTE_B1", .text "# REM \"COPY\" =")], world⟩)) ∧
    ∃ world, (script Host.ofNames 6 (.list [.text "NOTE_B1 = \"# REM \"COPY\" =\"",
        .text "COPY = NOTE_B1"])).run Session.bundled =
      (.ok (), ⟨[("NOTE_B1", .text "# REM \"COPY\" ="), ("COPY", .text "# REM \"COPY\" =")],
        world⟩) := by
  have name : Assignable ⟨.bool true, []⟩ "NOTE_B1" :=
    assignable_of_ne (by decide) (by decide) (by decide)
  have copy : Assignable ⟨.bool true, []⟩ "COPY" :=
    assignable_of_ne (by decide) (by decide) (by decide)
  have unbroken : Text.Unbroken "# REM \"COPY\" =".toList := ⟨by decide, by decide⟩
  obtain ⟨⟨world, run, -⟩, -, -, both⟩ :=
    script_literal Host.ofNames Session.bundled_isOf (Nat.lt_succ_self 5) rfl name copy unbroken
      (by decide)
  obtain ⟨other, behind, -⟩ := both _ (.list _)
  exact ⟨⟨world, run⟩, other, behind⟩

/-- Where comments are skipped nothing is kept under the name REM, and a literal with ` = ` in it is
kept under another name. -/
theorem script_literal_remark :
    IsName "REM".toList ∧ "REM" ≠ State.lineName ∧ Text.Unbroken "w".toList ∧
      Session.bundled.world.engine.IsOf (Engine.bundledActions ⟨.bool true, []⟩) ∧
      Session.bundled.state.transient = (none, none) ∧
      ((script Host.ofNames 6 (.text "REM = \"w\"")).run Session.bundled).1.isOk = true ∧
      ((script Host.ofNames 6 (.text "REM = \"w\"")).run Session.bundled).2.state.get? "REM" =
        none ∧
      ((script Host.ofNames 6 (.text "X = \"a = b\"")).run Session.bundled).2.state.get? "X" =
        none := by
  refine ⟨(Reference.isParts_iff _).mp (by decide), by decide, ⟨by decide, by decide⟩,
    Session.bundled_isOf, rfl, by decide +kernel, ?_, ?_⟩
  · exact Option.isNone_iff_eq_none.mp (by decide +kernel)
  · exact Option.isNone_iff_eq_none.mp (by decide +kernel)

end Run

end LineScript
