import LineScript.Proofs.Run.Fuel
import LineScript.Proofs.Run.Unfolding
import LineScript.Proofs.Script.Lines

/-!
# Macros

An action whose handler is a text or a row of lines is a *macro*. A line that it alone matches
unfolds to the lines of the handler. So, as long as matchers are pure, a script with such a line and
the script with the lines in its place come to the same (`LineScript.Run.script_macro`).
-/

namespace LineScript

/-- Whether a handler is a text or a row of lines that is not empty, and the lines that it stands
for. -/
inductive Handler.Expands : Handler → List Line → Prop where
  | text {content : String} : content ≠ "" →
      Expands (.line (.text content)) ((Script.ofText content).map Prod.snd)
  | lines {contents : List Line} : contents ≠ [] →
      Expands (.lines contents) (Script.linesOf (contents.map Line.toValue))

namespace Handler.Expands

variable {Memory : Type} {handler : Handler} {lines : List Line}

theorem normal (expands : handler.Expands lines) : ∀ line ∈ lines, line.Normal := by
  cases expands with
  | lines filled => exact fun line member => Script.normal_of_mem_linesOf member
  | @text content filled =>
      intro line member
      have items : ((Text.segments content.toList).map fun segment =>
          Value.text (String.ofList segment)) =
          ((Text.segments content.toList).map fun segment =>
            Line.text (String.ofList segment)).map Line.toValue := by
        rw [List.map_map]
        rfl
      unfold Script.ofText at member
      rw [items] at member
      exact Script.normal_of_mem_linesOf member

theorem isLiteral (expands : handler.Expands lines) : handler.isLiteral = true := by
  cases expands <;> rfl

/-- A handler that is a text or a row of lines answers with what it stands for. -/
theorem handle_run (expands : handler.Expands lines) (host : Host Memory) :
    ∃ result, Run.effectOf result = some (.inr lines) ∧
      ∀ arguments (session : Session Memory),
        (Action.handle host handler arguments).run session = (.ok result, session) := by
  cases expands with
  | @text content filled =>
      refine ⟨.text content, ?_, fun _ _ => rfl⟩
      have nonempty : content.isEmpty = false := by
        simpa using filled
      unfold Run.effectOf Replacement.ofValue?
      simp only [nonempty]
      rfl
  | @lines contents filled =>
      refine ⟨.list (contents.map Line.toValue), ?_, fun _ _ => rfl⟩
      have nonempty : (contents.map Line.toValue).isEmpty = false := by
        simpa using filled
      unfold Run.effectOf Replacement.ofValue?
      simp only [nonempty]
      rfl

end Handler.Expands

namespace Run

variable {Memory : Type} {host : Host Memory}

/-- A line that one action matches, a macro without dereferencing, unfolds to the lines of the
macro. -/
theorem unfolds_of_expands {front back : List Action} {action : Action} {content : String}
    {lines : List Line}
    (before : ∀ other ∈ front, Passes host (.text content) other)
    (behind : ∀ other ∈ back, Passes host (.text content) other)
    (matching : Matches host (.text content) action) (direct : action.deref.truthy = false)
    (expands : action.handler.Expands lines) :
    Unfolds host (front ++ action :: back) content lines fun event => event.isCall = false := by
  obtain ⟨result, effect, handled⟩ := expands.handle_run host
  have goesOn : endsLine result = false := by
    rw [endsLine_eq, effect]
    rfl
  refine unfolds_of_offering (.rewrite lines) (fun _ _ => rfl) fun session => ?_
  obtain ⟨next, asked, first, offered, events, asks⟩ :=
    offering_of_passes before (action :: back) .start session
  obtain ⟨call, invoked, returned, second, called⟩ :=
    trial_of_matches matching direct expands.isLiteral
      (fun arguments place => congrArg Prod.fst (handled arguments place)) next
  obtain ⟨last, asked', third, offered', events', asks'⟩ := offering_of_passes behind []
    (LineProgress.start.after result) (regarding call.after result)
  rw [List.append_nil] at offered' events'
  refine ⟨LineProgress.start.after result, last, [call], ?_, ?_,
    third.trans ((regarding_alike call.after result).trans (second.trans first)), ?_⟩
  · rw [offered, offering, invoked]
    simp only [returned, goesOn, offered']
    rfl
  · rw [outcome_eq, LineProgress.summary_after, effect]
    rfl
  · rw [events, offeringEvents, invoked]
    simp only [called, returned, goesOn, events', matching.accepts, ↓reduceIte,
      Bool.false_eq_true, List.nil_append]
    refine List.forall_mem_append.mpr ⟨?_, List.forall_mem_append.mpr ⟨?_, ?_⟩⟩
    · intro event member
      obtain ⟨other, -, rfl⟩ := asks event member
      rfl
    · exact List.forall_mem_singleton.mpr rfl
    · refine List.forall_mem_append.mpr ⟨?_, List.forall_mem_nil _⟩
      intro event member
      obtain ⟨other, -, rfl⟩ := asks' event member
      rfl

/-- Whether the answers of an action depend on the line alone, and asking it does nothing else. -/
def AnswersPurely (host : Host Memory) (action : Action) : Prop :=
  ∀ line, ∃ answer, ∀ world : World Memory,
    ((action.matched host line).run world).1 = answer ∧
      ((action.matched host line).run world).2.Alike world

theorem AnswersPurely.leads {action : Action} (pure : AnswersPurely host action) (line : Line) :
    Leads (fun start last => last.Alike start) (Option (List Value))
      (action.matched host line) := by
  obtain ⟨answer, answers⟩ := pure line
  exact fun start => (answers start).2

instance : Std.Refl fun start last : World Memory => last.Alike start :=
  ⟨World.Alike.refl⟩

instance : IsTrans (World Memory) fun start last => last.Alike start :=
  ⟨fun _ _ _ before after => after.trans before⟩

theorem isRecognized_pure {actions : List Action}
    (pure : ∀ action ∈ actions, AnswersPurely host action) (line : Line) :
    Leads (fun start last => last.Alike start) Bool (isRecognized host line actions) := by
  have sequential := sequential_leads fun start last : World Memory => last.Alike start
  induction actions with
  | nil => exact sequential.pure _
  | cons action others ih =>
      obtain ⟨own, rest⟩ := List.forall_mem_cons.mp pure
      unfold isRecognized
      split
      · refine sequential.andThen (own.leads line) ?_
        rintro (_ | taken)
        · exact ih rest
        · exact sequential.pure _
      · exact ih rest

/-- The inspection of lines leaves all but the notices as it is if all matchers are pure. -/
theorem preflight_pure {actions : List Action}
    (pure : ∀ action ∈ actions, AnswersPurely host action) (lines : List (Nat × Line)) :
    Leads (fun start last => last.Alike start) Unit (preflight host actions lines) := by
  have sequential := sequential_leads fun start last : World Memory => last.Alike start
  have inspected : Leads (fun start last => last.Alike start) (List String)
      (diagnostics host actions lines) := by
    induction lines with
    | nil => exact sequential.pure _
    | cons line others ih =>
        obtain ⟨number, content | mark⟩ := line
        · unfold diagnostics
          refine sequential.andThen (isRecognized_pure pure _) ?_
          rintro (_ | _)
          · exact sequential.andThen (fun world => World.Alike.noting_left world _) fun _ =>
              sequential.map ih _
          · exact ih
        · exact ih
  refine sequential.andThen inspected fun found => ?_
  split
  · exact sequential.throw _
  · exact sequential.pure _

/-- What the approval of a script has come from. -/
theorem exists_of_approved {fuel : Nat} {source : Value} {items : List Value}
    {actions : List Action} {lines : List Line} {start world : World Memory}
    (consists : Script.ConsistsOf source items)
    (approved : (approve host fuel source).run start = (.ok (actions, lines), world)) :
    lines = Script.executedOf items ∧
      ∃ ready, (Engine.prepare host fuel).run start = (.ok actions, ready) ∧
        (preflight host actions (Script.beforeFinish (Script.ofItems items))).run ready =
          (.ok (), world) := by
  unfold approve at approved
  rw [run_bind_of_ok (scriptLines_run consists fuel start)] at approved
  obtain ⟨resolved, ready, prepared, rest⟩ := exists_of_run_bind approved
  obtain ⟨_, last, checked, ended⟩ := exists_of_run_bind rest
  cases ended
  exact ⟨rfl, ready, prepared, checked⟩

theorem AnswersPurely.passes {action : Action} (pure : AnswersPurely host action) {line : Line}
    {world : World Memory}
    (passed : action.accepts line.toValue = true →
      ((action.matched host line).run world).1 = .ok none) : Passes host line action := by
  intro accepted other
  obtain ⟨answer, answers⟩ := pure line
  rw [← passed accepted, (answers world).1]
  exact answers other

theorem AnswersPurely.matching {action : Action} (pure : AnswersPurely host action) {line : Line}
    {world : World Memory} (accepts : action.accepts line.toValue = true)
    (matched : ∃ taken, ((action.matched host line).run world).1 = .ok (some taken)) :
    Matches host line action := by
  refine ⟨accepts, ?_⟩
  intro other
  obtain ⟨taken, own⟩ := matched
  obtain ⟨answer, answers⟩ := pure line
  refine ⟨taken, ?_⟩
  rw [← own, (answers world).1]
  exact answers other

/-- Whether two runs in the same session have the same result, leave the same state and worlds that
are alike, and call the same handlers. -/
structure SameRuns (host : Host Memory) (fuel : Nat) (source : Value) (fuel' : Nat)
    (source' : Value) (session : Session Memory) : Prop where
  result : ((script host fuel source).run session).1 = ((script host fuel' source').run session).1
  left : ((script host fuel source).run session).2.Alike
    ((script host fuel' source').run session).2
  calls : (runEvents host fuel source session).filter Event.isCall =
    (runEvents host fuel' source' session).filter Event.isCall

theorem runEvents_calls {fuel : Nat} {source : Value} {session : Session Memory}
    {actions : List Action} {lines : List Line} {world : World Memory}
    (approved : (approve host fuel source).run session.world = (.ok (actions, lines), world)) :
    (runEvents host fuel source session).filter Event.isCall =
      ((runCourse host fuel actions lines (session.inWorld world)).events host actions).filter
        Event.isCall := by
  have asked : ((approvalQuestions host fuel source session.world).map Question.event).filter
      Event.isCall = [] := by
    rw [List.filter_eq_nil_iff]
    intro event member
    obtain ⟨question, -, rfl⟩ := List.mem_map.mp member
    exact Bool.false_ne_true
  unfold runEvents
  rw [List.filter_append, asked, approved]
  rfl

/-- Approved scripts run alike if their courses do. -/
theorem sameRuns_of_widens {Own : Event → Prop} {fuel fuel' : Nat} {source source' : Value}
    {session : Session Memory} {actions : List Action} {lines lines' : List Line}
    {world world' : World Memory}
    (approved : (approve host fuel source).run session.world = (.ok (actions, lines), world))
    (approved' : (approve host fuel' source').run session.world = (.ok (actions, lines'), world'))
    (widens : Widens host Own actions actions
      (runCourse host fuel actions lines (session.inWorld world))
      (runCourse host fuel' actions lines' (session.inWorld world')))
    (silent : ∀ event, Own event → event.isCall = false) :
    SameRuns host fuel source fuel' source' session := by
  refine ⟨?_, ?_, ?_⟩
  · rw [script_run_of_approved approved, script_run_of_approved approved']
    exact widens.result
  · rw [script_run_of_approved approved, script_run_of_approved approved']
    exact ⟨congrArg State.withoutTransient widens.session.state, widens.session.world⟩
  · rw [runEvents_calls approved, runEvents_calls approved']
    exact widens.events.filter_eq silent

/-- Actions that act alike recognize the same lines. -/
theorem preflight_actsAlike {actions others : List Action}
    (alike : List.Forall₂ (ActsAlike host) actions others) (lines : List (Nat × Line)) :
    preflight host actions lines = preflight host others lines := by
  have recognized (line : Line) :
      isRecognized host line actions = isRecognized host line others := by
    induction alike with
    | nil => rfl
    | cons acts _ ih =>
        unfold isRecognized Action.matched
        rw [acts.accepts, acts.matcher, ih]
  have inspected : diagnostics host actions lines = diagnostics host others lines := by
    induction lines with
    | nil => rfl
    | cons line others ih =>
        obtain ⟨number, content | mark⟩ := line
        · unfold diagnostics
          rw [recognized, ih]
        · exact ih
  unfold preflight
  rw [inspected]

/-- Macros with the same matcher and the same lines act alike. -/
theorem actsAlike_of_expands (ignores : host.IgnoresNotices) {action : Action} {handler : Handler}
    {lines : List Line} (expands : action.handler.Expands lines)
    (expands' : handler.Expands lines) :
    ActsAlike host action { action with handler := handler } := by
  refine actsAlike_of_handlers ignores fun arguments session other same => ?_
  obtain ⟨one, effect, first⟩ := expands.handle_run host
  obtain ⟨two, effect', second⟩ := expands'.handle_run host
  refine .invoked ?_ ?_ ?_
  · exact (if_pos expands.isLiteral).trans (if_pos expands'.isLiteral).symm
  · change ((Action.handle host action.handler arguments).run session).1.map effectOf =
      ((Action.handle host handler arguments).run other).1.map effectOf
    rw [first, second]
    exact congrArg Except.ok (effect.trans effect'.symm)
  · change ((Action.handle host action.handler arguments).run session).2.Alike
      ((Action.handle host handler arguments).run other).2
    rw [first, second]
    exact same

/-- The lines of a script with a macro, and of the script with the lines of the macro. -/
theorem executedOf_macro {lines : List Line} {content : String} {before : List Value}
    (endless : finishLine ∉ lines) (normal : ∀ line ∈ lines, line.Normal)
    (filled : content ≠ "") (text : Line.ofText content = .text content)
    (unfinished : ∀ item ∈ before, Line.ofValue item ≠ finishLine) (after : List Value) :
    Script.executedOf (before ++ .text content :: after) =
        Script.linesOf before ++ .text content :: Script.executedOf after ∧
      Script.executedOf (before ++ (lines.map Line.toValue ++ after)) =
        Script.linesOf before ++ (lines ++ Script.executedOf after) := by
  have own : Line.ofValue (.text content) = .text content := text
  have other : Line.ofValue (.text content) ≠ finishLine := by
    rw [own]
    rintro ⟨⟩
  have others : ∀ item ∈ lines.map Line.toValue, Line.ofValue item ≠ finishLine := by
    intro item member
    obtain ⟨line, listed, rfl⟩ := List.mem_map.mp member
    rw [(normal line listed).self]
    rintro rfl
    exact endless listed
  constructor
  · rw [Script.executedOf_append unfinished,
      Script.executedOf_cons (fun empty => filled (Value.text.inj empty)) other, own]
  · rw [Script.executedOf_append unfinished, Script.executedOf_append others,
      Script.linesOf_map_toValue normal]

/-- Two scripts that are approved in the same world are approved with the same actions, and in
worlds that are alike if all matchers are pure. -/
theorem worlds_of_approved {fuel : Nat} {source source' : Value} {items items' : List Value}
    {actions others : List Action} {lines lines' : List Line} {start world world' : World Memory}
    (pure : ∀ action ∈ actions, AnswersPurely host action)
    (consists : Script.ConsistsOf source items)
    (approved : (approve host fuel source).run start = (.ok (actions, lines), world))
    (consists' : Script.ConsistsOf source' items')
    (approved' : (approve host fuel source').run start = (.ok (others, lines'), world')) :
    lines = Script.executedOf items ∧ lines' = Script.executedOf items' ∧ others = actions ∧
      world.Alike world' := by
  obtain ⟨own, ready, prepared, checked⟩ := exists_of_approved consists approved
  obtain ⟨own', ready', prepared', checked'⟩ := exists_of_approved consists' approved'
  rw [prepared] at prepared'
  cases prepared'
  have first := preflight_pure pure (Script.beforeFinish (Script.ofItems items)) ready
  have second := preflight_pure pure (Script.beforeFinish (Script.ofItems items')) ready
  rw [checked] at first
  rw [checked'] at second
  exact ⟨own, own', rfl, first.trans second.symm⟩

/-- Macros are transparent. Matchers are pure, and one action alone matches a text line: a macro
without dereferencing whose lines hold no FINISH. When a script with that line and the script with
the lines of the macro in its place are both approved, in a session without a line at hand, then
their runs have the same result and state and call the same handlers with the same arguments, if
either of them ends; the first takes at most one step more. And a text as a handler and the row of
its lines are interchangeable: they approve the same lines, and their runs come to the same. -/
theorem script_macro (ignores : host.IgnoresNotices) {front back others : List Action}
    {action : Action} {content : String} {lines executed executed' : List Line}
    {before after : List Value} {source replaced : Value} {fuel : Nat} {session : Session Memory}
    {world world' : World Memory}
    (pure : ∀ other ∈ front ++ action :: back, AnswersPurely host other)
    (accepts : action.accepts (.text content) = true)
    (matched : ∃ taken,
      ((action.matched host (.text content)).run session.world).1 = .ok (some taken))
    (alone : ∀ other ∈ front ++ back, other.accepts (.text content) = true →
      ((other.matched host (.text content)).run session.world).1 = .ok none)
    (direct : action.deref.truthy = false) (expands : action.handler.Expands lines)
    (endless : finishLine ∉ lines) (filled : content ≠ "")
    (text : Line.ofText content = .text content)
    (unfinished : ∀ item ∈ before, Line.ofValue item ≠ finishLine) (lacks : LacksLine session)
    (written : Script.ConsistsOf source (before ++ .text content :: after))
    (rewritten : Script.ConsistsOf replaced (before ++ (lines.map Line.toValue ++ after)))
    (approved : (approve host fuel source).run session.world =
      (.ok (front ++ action :: back, executed), world))
    (approved' : (approve host fuel replaced).run session.world =
      (.ok (others, executed'), world')) :
    (((script host fuel source).run session).1 ≠ .error .outOfFuel →
      SameRuns host fuel source fuel replaced session) ∧
    (((script host fuel replaced).run session).1 ≠ .error .outOfFuel →
      SameRuns host (fuel + 1) source fuel replaced session) ∧
    ∀ row, lines ≠ [] → row = front ++ { action with handler := .lines lines } :: back →
      (∀ numbered, preflight host (front ++ action :: back) numbered =
        preflight host row numbered) ∧
      ∀ fuel queue session,
        let one := runCourse host fuel (front ++ action :: back) queue session
        let two := runCourse host fuel row queue session
        one.result = two.result ∧ one.session.Alike two.session ∧
          one.events host (front ++ action :: back) = two.events host row := by
  obtain ⟨first, second⟩ := executedOf_macro endless expands.normal filled text unfinished after
  obtain ⟨rfl, rfl, rfl, worlds⟩ := worlds_of_approved pure written approved rewritten approved'
  rw [first] at approved
  rw [second] at approved'
  have same : (session.inWorld world).Alike (session.inWorld world') :=
    (Session.Alike.refl session).inWorld worlds
  have unfolds : Unfolds host (front ++ action :: back) content lines
      fun event => event.isCall = false := by
    obtain ⟨ahead, rest⟩ := List.forall_mem_append.mp pure
    obtain ⟨own, behind⟩ := List.forall_mem_cons.mp rest
    obtain ⟨aheadPass, behindPass⟩ := List.forall_mem_append.mp alone
    exact unfolds_of_expands
      (fun other member => (ahead other member).passes (aheadPass other member))
      (fun other member => (behind other member).passes (behindPass other member))
      (own.matching accepts matched) direct expands
  have lacking : LacksLine (session.inWorld world) := lacks
  have unfolding := runCourse_unfold ignores unfolds fuel (Script.linesOf before)
    (Script.executedOf after) lacking same
  refine ⟨fun ended => ?_, fun ended => ?_, ?_⟩
  · rw [script_run_of_approved approved] at ended
    exact sameRuns_of_widens approved approved' (unfolding.1 ended) fun _ silent => silent
  · rw [script_run_of_approved approved'] at ended
    have again := approve_add_fuel host fuel 1 source session.world
    rw [approved] at again
    exact sameRuns_of_widens (again (by rintro ⟨⟩)) approved' (unfolding.2 ended)
      fun _ silent => silent
  · rintro row several rfl
    have expands' : (Handler.lines lines).Expands lines := by
      have expands' := Handler.Expands.lines several
      rw [Script.linesOf_map_toValue expands.normal] at expands'
      exact expands'
    have alike : List.Forall₂ (ActsAlike host) (front ++ action :: back)
        (front ++ { action with handler := .lines lines } :: back) :=
      List.rel_append (forall₂_actsAlike_refl ignores front)
        (.cons (actsAlike_of_expands ignores expands expands')
          (forall₂_actsAlike_refl ignores back))
    refine ⟨preflight_actsAlike alike, fun fuel queue session => ?_⟩
    have widens : Widens host (fun _ => False) _ _ _ _ :=
      runCourse_alike alike fuel queue (.refl session)
    exact ⟨widens.result, widens.session, widens.events.eq_of_forall_not fun _ => id⟩

theorem answersPurely_ofName (name : String) (handler : Handler) (deref : Bool) :
    AnswersPurely Host.ofNames (Action.ofName name handler deref) := by
  intro line
  refine ⟨.ok (if line = .text name then some [] else none), fun world => ?_⟩
  rw [matched_ofName]
  exact ⟨rfl, .refl world⟩

/-- Actions by which the line `pair` stands for `leaf` twice. -/
def doubling : List Action :=
  [.ofName "pair" (.line (.text "leaf\nleaf")) false, .ofName "leaf" (.call ⟨0, "leaf"⟩) false]

/-- The line `pair` in front of another `leaf` does what three of them do. -/
theorem script_macro_doubling :
    SameRuns Host.ofNames 9 (.list [.text "pair", .text "leaf"]) 9
        (.list [.text "leaf", .text "leaf", .text "leaf"]) (Session.ofActions doubling) ∧
      ((runEvents Host.ofNames 9 (.list [.text "pair", .text "leaf"])
        (Session.ofActions doubling)).filter Event.isCall).length = 3 := by
  have expands : (Handler.line (.text "leaf\nleaf")).Expands [.text "leaf", .text "leaf"] :=
    .text (by decide)
  have pure : ∀ other ∈ [] ++ Action.ofName "pair" (.line (.text "leaf\nleaf")) false ::
      [Action.ofName "leaf" (.call ⟨0, "leaf"⟩) false], AnswersPurely Host.ofNames other := by
    refine List.forall_mem_cons.mpr ⟨answersPurely_ofName _ _ _, ?_⟩
    exact List.forall_mem_singleton.mpr (answersPurely_ofName _ _ _)
  have alone : ∀ other ∈ [] ++ [Action.ofName "leaf" (.call ⟨0, "leaf"⟩) false],
      other.accepts (.text "pair") = true →
        ((other.matched Host.ofNames (.text "pair")).run
          (Session.ofActions doubling).world).1 = .ok none := by
    refine List.forall_mem_singleton.mpr fun _ => ?_
    rw [matched_ofName]
    rfl
  have approved : (approve Host.ofNames 9 (.list [.text "pair", .text "leaf"])).run
      (Session.ofActions doubling).world =
        (.ok (doubling, [.text "pair", .text "leaf"]), (Session.ofActions doubling).world) := by
    rfl
  have approved' : (approve Host.ofNames 9
      (.list [.text "leaf", .text "leaf", .text "leaf"])).run (Session.ofActions doubling).world =
        (.ok (doubling, [.text "leaf", .text "leaf", .text "leaf"]),
          (Session.ofActions doubling).world) := by
    rfl
  have ends : ((script Host.ofNames 9 (.list [.text "pair", .text "leaf"])).run
      (Session.ofActions doubling)).1.isOk = true := by
    decide +kernel
  obtain ⟨same, -, -⟩ := script_macro ignoresNotices_ofNames pure rfl ⟨[], rfl⟩ alone rfl expands
    (by decide) (by decide) (by decide) (List.forall_mem_nil _) rfl
    (.list ([] ++ Value.text "pair" :: [.text "leaf"])) (.list _) approved approved'
  exact ⟨same (ne_outOfFuel_of_isOk ends), by decide +kernel⟩

end Run

end LineScript
