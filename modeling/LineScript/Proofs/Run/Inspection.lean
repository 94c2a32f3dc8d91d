import LineScript.Proofs.Run.Unfolding

/-!
# Inspecting more lines

A line that is put into a script is inspected with the others. If it is recognized, and asking about
it does nothing else, then the inspection finds the same as without it, except that lines behind it
have another number (`LineScript.Run.diagnostics_withLine`).
-/

namespace LineScript.Run

variable {Memory : Type} {host : Host Memory} {actions : List Action}

/-- Worlds that are alike give rise to the same questions about a line. -/
theorem recognitionQuestions_alike (ignores : host.IgnoresNotices) (line : Line)
    (actions : List Action) {world other : World Memory} (same : world.Alike other) :
    (recognitionQuestions host line actions world).map Question.event =
      (recognitionQuestions host line actions other).map Question.event := by
  induction actions generalizing world other with
  | nil => rfl
  | cons action others ih =>
      unfold recognitionQuestions
      by_cases accepted : action.accepts line.toValue
      · rw [if_pos accepted, if_pos accepted]
        obtain ⟨result, worlds⟩ := ignores.matched action line world other same
        rcases one : (action.matched host line).run world with ⟨answer, next⟩
        rcases two : (action.matched host line).run other with ⟨answer', next'⟩
        rw [one, two] at result worlds
        obtain rfl : answer = answer' := result
        rcases answer with failure | _ | taken
        · rfl
        · exact congrArg (List.cons _) (ih worlds)
        · rfl
      · rw [if_neg accepted, if_neg accepted]
        exact ih same

/-- A line is recognized by the first action that does not pass it. -/
theorem isRecognized_of_matches {line : Line} {front back : List Action} {action : Action}
    (before : ∀ other ∈ front, Passes host line other) (matching : Matches host line action)
    (world : World Memory) :
    ∃ last, (isRecognized host line (front ++ action :: back)).run world = (.ok true, last) ∧
      last.Alike world ∧
      ∀ question ∈ recognitionQuestions host line (front ++ action :: back) world,
        ∃ other ∈ front ++ [action], question.event = .asked other.matcher line := by
  induction front generalizing world with
  | nil =>
      obtain ⟨taken, result, alike⟩ := matching.matched world
      rcases asked : (action.matched host line).run world with ⟨answer, last⟩
      rw [asked] at result alike
      obtain rfl : answer = .ok (some taken) := result
      refine ⟨last, ?_, alike, ?_⟩
      · rw [List.nil_append, isRecognized, if_pos matching.accepts, run_bind_of_ok asked]
        rfl
      · rw [List.nil_append, recognitionQuestions, if_pos matching.accepts, asked]
        exact List.forall_mem_singleton.mpr ⟨action, List.mem_cons_self, rfl⟩
  | cons other front ih =>
      obtain ⟨own, rest⟩ := List.forall_mem_cons.mp before
      have further {questions : List (Question Memory)}
          (asks : ∀ question ∈ questions, ∃ earlier ∈ front ++ [action],
            question.event = .asked earlier.matcher line) :
          ∀ question ∈ questions, ∃ earlier ∈ other :: front ++ [action],
            question.event = .asked earlier.matcher line := by
        intro question member
        obtain ⟨earlier, listed, same⟩ := asks question member
        exact ⟨earlier, List.mem_cons_of_mem other listed, same⟩
      rw [List.cons_append, isRecognized, recognitionQuestions]
      by_cases accepted : other.accepts line.toValue
      · rw [if_pos accepted, if_pos accepted]
        obtain ⟨result, alike⟩ := own accepted world
        rcases asked : (other.matched host line).run world with ⟨answer, next⟩
        rw [asked] at result alike
        obtain rfl : answer = .ok none := result
        obtain ⟨last, recognized, after, asks⟩ := ih rest next
        refine ⟨last, ?_, after.trans alike, ?_⟩
        · rw [run_bind_of_ok asked]
          exact recognized
        · exact List.forall_mem_cons.mpr ⟨⟨other, List.mem_cons_self, rfl⟩, further asks⟩
      · rw [if_neg accepted, if_neg accepted]
        obtain ⟨last, recognized, after, asks⟩ := ih rest world
        exact ⟨last, recognized, after, further asks⟩

/-- Whether numbered lines are some others, under other numbers, with a text line put in. -/
inductive WithLine (renumber : Nat → Nat) (content : String) :
    List (Nat × Line) → List (Nat × Line) → Prop where
  | nil : WithLine renumber content [] []
  | keep (number : Nat) (line : Line) {lines others : List (Nat × Line)} :
      WithLine renumber content lines others →
      WithLine renumber content ((renumber number, line) :: lines) ((number, line) :: others)
  | extra (number : Nat) {lines others : List (Nat × Line)} :
      WithLine renumber content lines others →
      WithLine renumber content ((number, .text content) :: lines) others

theorem WithLine.beforeFinish {renumber : Nat → Nat} {content : String}
    {lines others : List (Nat × Line)} (widened : WithLine renumber content lines others) :
    WithLine renumber content (Script.beforeFinish lines) (Script.beforeFinish others) := by
  induction widened with
  | nil => exact .nil
  | keep number line _ ih =>
      by_cases finish : line = finishLine
      · rw [finish]
        exact .nil
      · rw [Script.beforeFinish_cons finish, Script.beforeFinish_cons finish]
        exact .keep number line ih
  | extra number _ ih =>
      rw [Script.beforeFinish_cons Line.noConfusion]
      exact .extra number ih

/-- The number of a line when one more line stands behind a place. -/
def numberBehind (place number : Nat) : Nat :=
  if number ≤ place then number else number + 1

theorem withLine_numberFrom_succ (content : String) {place number : Nat} (behind : place < number)
    (items : List Value) :
    WithLine (numberBehind place) content (Script.numberFrom (number + 1) items)
      (Script.numberFrom number items) := by
  induction items generalizing number with
  | nil => exact .nil
  | cons item items ih =>
      have rest := ih (Nat.lt_succ_of_lt behind)
      by_cases empty : item = .text ""
      · rw [empty, Script.numberFrom_empty, Script.numberFrom_empty]
        exact rest
      · have other : numberBehind place number = number + 1 := if_neg (Nat.not_le.mpr behind)
        have kept := WithLine.keep number (Line.ofValue item) rest
        rw [other] at kept
        rw [Script.numberFrom_cons empty, Script.numberFrom_cons empty]
        exact kept

/-- The numbered lines of items among which a text line is put. -/
theorem withLine_numberFrom {content : String} (text : Line.ofText content = .text content)
    {before : List Value} {place number : Nat} (count : number + before.length = place + 1)
    (after : List Value) :
    WithLine (numberBehind place) content
      (Script.numberFrom number (before ++ .text content :: after))
      (Script.numberFrom number (before ++ after)) := by
  induction before generalizing number with
  | nil =>
      have behind : place < number := Nat.le_of_eq count.symm
      have rest := withLine_numberFrom_succ content behind after
      rw [List.nil_append, List.nil_append]
      by_cases empty : content = ""
      · rw [empty, Script.numberFrom_empty, ← empty]
        exact rest
      · rw [Script.numberFrom_cons fun same => empty (Value.text.inj same)]
        have own : Line.ofValue (.text content) = .text content := text
        rw [own]
        exact .extra number rest
  | cons item before ih =>
      rw [List.length_cons] at count
      have rest := @ih (number + 1) (by omega)
      rw [List.cons_append, List.cons_append]
      by_cases empty : item = .text ""
      · rw [empty, Script.numberFrom_empty, Script.numberFrom_empty]
        exact rest
      · have same : numberBehind place number = number := if_pos (by omega)
        have kept := WithLine.keep number (Line.ofValue item) rest
        rw [same] at kept
        rw [Script.numberFrom_cons empty, Script.numberFrom_cons empty]
        exact kept

/-- Whether a text line is recognized wherever it is inspected, asking about it does nothing else,
and the questions are of some kind. -/
def Recognized (host : Host Memory) (actions : List Action) (content : String)
    (Own : Event → Prop) : Prop :=
  ∀ world : World Memory, ∃ last,
    (isRecognized host (.text content) actions).run world = (.ok true, last) ∧
      last.Alike world ∧
      ∀ question ∈ recognitionQuestions host (.text content) actions world, Own question.event

/-- The inspection of a text line and some others, by whether the line is recognized. -/
theorem diagnostics_text {content : String} {world next : World Memory}
    {answer : Except Failure Bool}
    (asked : (isRecognized host (.text content) actions).run world = (answer, next))
    (number : Nat) (others : List (Nat × Line)) :
    (diagnostics host actions ((number, .text content) :: others)).run world =
      match answer with
      | .error failure => (.error failure, next)
      | .ok true => (diagnostics host actions others).run next
      | .ok false =>
        let rest := (diagnostics host actions others).run
          (next.noting (.unrecognized number (.text content)))
        (rest.1.map (diagnostic (number, content) :: ·), rest.2) := by
  rcases answer with failure | _ | _
  · rw [diagnostics, run_bind_of_error asked]
  · rw [diagnostics, run_bind_of_ok asked]
    simp only [Bool.false_eq_true, ↓reduceIte]
    rw [run_bind_of_ok (Query.run_note _ next)]
    rcases found : (diagnostics host actions others).run
      (next.noting (.unrecognized number (.text content))) with ⟨failure | others, last⟩
    · rw [run_bind_of_error found]
      rfl
    · rw [run_bind_of_ok found]
      rfl
  · exact diagnostics_of_recognized asked number others

/-- The questions about a text line and some others, by whether the line is recognized. -/
theorem inspectionQuestions_text {content : String} {world next : World Memory}
    {answer : Except Failure Bool}
    (asked : (isRecognized host (.text content) actions).run world = (answer, next))
    (number : Nat) (others : List (Nat × Line)) :
    inspectionQuestions host actions ((number, .text content) :: others) world =
      recognitionQuestions host (.text content) actions world ++
        match answer with
        | .error _ => []
        | .ok true => inspectionQuestions host actions others next
        | .ok false => inspectionQuestions host actions others
            (next.noting (.unrecognized number (.text content))) := by
  rw [inspectionQuestions, diagnostics_text asked]
  rcases answer with failure | _ | _ <;> rfl

/-- Whether two inspections come to the same, except that the lines that they report have other
numbers, and that questions of some kind are put into the first. -/
structure InspectsAlike (host : Host Memory) (actions : List Action) (renumber : Nat → Nat)
    (Own : Event → Prop) (lines others : List (Nat × Line)) (world other : World Memory) :
    Prop where
  result : ∃ outcome : Except Failure (List (Nat × String)),
    ((diagnostics host actions lines).run world).1 =
      outcome.map (List.map fun entry => diagnostic (renumber entry.1, entry.2)) ∧
    ((diagnostics host actions others).run other).1 = outcome.map (List.map diagnostic)
  worlds : ((diagnostics host actions lines).run world).2.Alike
    ((diagnostics host actions others).run other).2
  questions : Widened Own
    ((inspectionQuestions host actions lines world).map Question.event)
    ((inspectionQuestions host actions others other).map Question.event)

/-- A line that is recognized adds nothing to an inspection. -/
theorem diagnostics_withLine (ignores : host.IgnoresNotices) {renumber : Nat → Nat}
    {content : String} {Own : Event → Prop} (recognized : Recognized host actions content Own)
    {lines others : List (Nat × Line)} (widened : WithLine renumber content lines others)
    {world other : World Memory} (same : world.Alike other) :
    InspectsAlike host actions renumber Own lines others world other := by
  induction widened generalizing world other with
  | nil => exact ⟨⟨.ok [], rfl, rfl⟩, same, .nil⟩
  | @extra number lines others _ ih =>
      obtain ⟨next, answer, alike, own⟩ := recognized world
      obtain ⟨result, worlds, questions⟩ := ih (alike.trans same)
      have step := diagnostics_text answer number lines
      refine ⟨?_, ?_, ?_⟩
      · rw [step]
        exact result
      · rw [step]
        exact worlds
      · rw [inspectionQuestions_text answer, List.map_append]
        refine questions.extras fun event member => ?_
        obtain ⟨question, listed, rfl⟩ := List.mem_map.mp member
        exact own question listed
  | @keep number line lines others _ ih =>
      cases line with
      | sentinel mark =>
          have rest := ih same
          exact ⟨rest.result, rest.worlds, rest.questions⟩
      | text text =>
          obtain ⟨result, worlds⟩ := isRecognized_is (sequential_respects _) ignores.toQueriesAre
            (.text text) actions world other same
          rcases one : (isRecognized host (.text text) actions).run world with ⟨answer, next⟩
          rcases two : (isRecognized host (.text text) actions).run other with ⟨answer', next'⟩
          rw [one, two] at result worlds
          obtain rfl : answer = answer' := result
          have asks := recognitionQuestions_alike ignores (.text text) actions same
          have step := diagnostics_text one (renumber number) lines
          have step' := diagnostics_text two number others
          have questions := inspectionQuestions_text one (renumber number) lines
          have questions' := inspectionQuestions_text two number others
          rcases answer with failure | _ | _
          · refine ⟨⟨.error failure, ?_, ?_⟩, ?_, ?_⟩
            · rw [step]
              rfl
            · rw [step']
              rfl
            · rw [step, step']
              exact worlds
            · rw [questions, questions', List.append_nil, List.append_nil, asks]
              exact .refl _
          · obtain ⟨⟨outcome, first, second⟩, after, further⟩ :=
              ih (worlds.noting (.unrecognized (renumber number) (.text text))
                (.unrecognized number (.text text)))
            refine ⟨⟨outcome.map ((number, text) :: ·), ?_, ?_⟩, ?_, ?_⟩
            · rw [step]
              simp only [first]
              cases outcome <;> rfl
            · rw [step']
              simp only [second]
              cases outcome <;> rfl
            · rw [step, step']
              exact after
            · rw [questions, questions', List.map_append, List.map_append, asks]
              exact further.behind _
          · obtain ⟨result, after, further⟩ := ih worlds
            refine ⟨?_, ?_, ?_⟩
            · rw [step, step']
              exact result
            · rw [step, step']
              exact after
            · rw [questions, questions', List.map_append, List.map_append, asks]
              exact further.behind _

/-- In an engine that has been prepared a script that has been read is approved if its inspection
finds nothing. -/
theorem approve_of_prepared {fuel : Nat} {source : Value} {lines : List (Nat × Line)}
    {start listing ready : World Memory}
    (written : (scriptLines host fuel source).run start = (.ok lines, listing))
    (prepared : (Engine.prepare host fuel).run listing = (.ok actions, ready)) :
    (approve host fuel source).run start =
      match (diagnostics host actions (Script.beforeFinish lines)).run ready with
      | (.error failure, last) => (.error failure, last)
      | (.ok [], last) => (.ok (actions, (Script.beforeFinish lines).map Prod.snd), last)
      | (.ok found, last) => (.error (.fault (.script (.unrecognizedLines found))), last) := by
  rcases inspection : (diagnostics host actions (Script.beforeFinish lines)).run ready with
    ⟨failure | found, last⟩
  · have refused : (preflight host actions (Script.beforeFinish lines)).run ready =
        (.error failure, last) := by
      unfold preflight
      exact run_bind_of_error inspection
    exact approve_run_of_preflight written prepared refused
  · have checked := preflight_run inspection
    cases found with
    | nil => exact approve_run_of_preflight written prepared checked
    | cons first rest => exact approve_run_of_preflight written prepared checked

theorem approvalQuestions_of_prepared {fuel : Nat} {source : Value} {lines : List (Nat × Line)}
    {start listing ready : World Memory}
    (written : (scriptLines host fuel source).run start = (.ok lines, listing))
    (prepared : (Engine.prepare host fuel).run listing = (.ok actions, ready)) :
    approvalQuestions host fuel source start =
      inspectionQuestions host actions (Script.beforeFinish lines) ready := by
  unfold approvalQuestions
  rw [written]
  simp only [prepared]

end LineScript.Run
