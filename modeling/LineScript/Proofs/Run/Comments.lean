import LineScript.Proofs.Bundled.Comments
import LineScript.Proofs.Library.Conduct
import LineScript.Proofs.Run.Fuel
import LineScript.Proofs.Run.Inspection
import LineScript.Proofs.Script.Lines

/-!
# Comments and blank lines

An engine that skips comments has the actions for them in front of all others. A comment or a blank
line is recognized by one of these, which ends the line. So a script comes to the same with such a
line and without it, whatever the other actions are, except that the lines behind it have another
number in a report (`LineScript.Run.script_comment`).
-/

namespace LineScript.Run

open Bundled (Comments.actions Comments.Skipped)

variable {Memory : Type} {host : Host Memory} {actions : List Action} {content : String}

/-- Whether an event is that an action for comments is asked about a line. -/
def AsksComment (content : String) (event : Event) : Prop :=
  ∃ action ∈ Comments.actions, event = .asked action.matcher (.text content)

/-- A line unfolds to nothing if the first action that does not pass it matches it and ends it. -/
theorem unfolds_of_done {front back : List Action} {action : Action}
    (before : ∀ other ∈ front, Passes host (.text content) other)
    (matching : Matches host (.text content) action) (direct : action.deref.truthy = false)
    (done : action.handler = .line (.sentinel .done)) :
    Unfolds host (front ++ action :: back) content []
      fun event => ∃ other ∈ front ++ [action], event = .asked other.matcher (.text content) := by
  have literal : action.handler.isLiteral = true := by
    rw [done]
    rfl
  have answers (arguments : List Value) (place : Session Memory) :
      ((Action.handle host action.handler arguments).run place).1 =
        .ok (.sentinel .done) := by
    rw [done]
    rfl
  have ends : endsLine (.sentinel .done) = true := rfl
  refine unfolds_of_offering .stopLine (fun _ _ => rfl) fun session => ?_
  obtain ⟨next, asked, first, offered, events, asks⟩ :=
    offering_of_passes before (action :: back) .start session
  obtain ⟨call, invoked, returned, second, called⟩ :=
    trial_of_matches matching direct literal answers next
  refine ⟨LineProgress.start.after (.sentinel .done), call.after, [call], ?_, rfl,
    second.trans first, ?_⟩
  · rw [offered, offering, invoked]
    simp only [returned, ends, ↓reduceIte]
  · rw [events, offeringEvents, invoked]
    simp only [called, returned, ends, matching.accepts, ↓reduceIte, List.append_nil]
    refine List.forall_mem_append.mpr ⟨?_, List.forall_mem_singleton.mpr ?_⟩
    · intro event member
      obtain ⟨other, own, same⟩ := asks event member
      exact ⟨other, List.mem_append_left _ own, same⟩
    · exact ⟨action, List.mem_append_right _ List.mem_cons_self, rfl⟩

theorem matches_ofPattern {pattern : Pattern} (handler : Handler)
    (found : (pattern.groups? content.toList).isSome = true) :
    Matches host (.text content) (.ofPattern pattern handler) := by
  obtain ⟨groups, taken⟩ := Option.isSome_iff_exists.mp found
  obtain ⟨items, reply⟩ : ∃ items,
      Matcher.patternReply pattern (.text content) = .list items := by
    simp only [Matcher.patternReply, taken]
    exact ⟨_, rfl⟩
  refine ⟨rfl, fun world => ⟨items, ?_, .refl world⟩⟩
  change Except.ok (Matcher.arguments? (Matcher.patternReply pattern (.text content))) = _
  rw [reply]
  rfl

theorem passes_ofPattern {pattern : Pattern} (handler : Handler)
    (missed : pattern.groups? content.toList = none) :
    Passes host (.text content) (.ofPattern pattern handler) := by
  intro _ world
  have reply : Matcher.patternReply pattern (.text content) = .null := by
    simp only [Matcher.patternReply, missed]
  refine ⟨?_, World.Alike.refl world⟩
  change Except.ok (Matcher.arguments? (Matcher.patternReply pattern (.text content))) = _
  rw [reply]
  rfl

/-- Behind the actions for comments no action is asked about a comment or a blank line: it is
recognized, and unfolds to nothing. -/
theorem skips_of_skipped (skipped : Comments.Skipped content.toList) (host : Host Memory)
    (others : List Action) :
    Recognized host (Comments.actions ++ others) content (AsksComment content) ∧
      Unfolds host (Comments.actions ++ others) content [] (AsksComment content) := by
  have done {front back : List Action} {action : Action}
      (split : Comments.actions = front ++ action :: back)
      (before : ∀ other ∈ front, Passes host (.text content) other)
      (matching : Matches host (.text content) action) (direct : action.deref.truthy = false)
      (ends : action.handler = .line (.sentinel .done)) :
      Recognized host (Comments.actions ++ others) content (AsksComment content) ∧
        Unfolds host (Comments.actions ++ others) content [] (AsksComment content) := by
    have own {event : Event}
        (asks : ∃ other ∈ front ++ [action], event = .asked other.matcher (.text content)) :
        AsksComment content event := by
      obtain ⟨other, member, same⟩ := asks
      refine ⟨other, ?_, same⟩
      rw [split, List.append_cons]
      exact List.mem_append_left back member
    have whole : Comments.actions ++ others = front ++ action :: (back ++ others) := by
      rw [split, List.append_assoc, List.cons_append]
    rw [whole]
    constructor
    · intro world
      obtain ⟨last, recognized, alike, asks⟩ := isRecognized_of_matches before matching world
      exact ⟨last, recognized, alike, fun question member => own (asks question member)⟩
    · intro session lacks
      obtain ⟨outcome, result, queue, alike, asks⟩ :=
        unfolds_of_done before matching direct ends session lacks
      exact ⟨outcome, result, queue, alike, fun event member => own (asks event member)⟩
  cases found : Bundled.Comments.blankLine.groups? content.toList with
  | some groups =>
      have blank : (Bundled.Comments.blankLine.groups? content.toList).isSome = true := by
        rw [found]
        rfl
      exact done (rfl : _ = [] ++ _) (List.forall_mem_nil _) (matches_ofPattern _ blank) rfl rfl
  | none =>
      have comment : (Bundled.Comments.comment.groups? content.toList).isSome = true := by
        refine (Bundled.Comments.groups?_of_skipped skipped).resolve_left ?_
        rw [found]
        exact Bool.false_ne_true
      refine done (rfl : _ = [_] ++ _) ?_ (matches_ofPattern _ comment) rfl rfl
      exact List.forall_mem_singleton.mpr (passes_ofPattern _ found)

/-- Whether two results are the same, except that lines behind a place have another number in a
report. -/
inductive Renumbered (place : Nat) : Except Failure Unit → Except Failure Unit → Prop where
  | same (result : Except Failure Unit) : Renumbered place result result
  | reported (bad : List (Nat × String)) :
      Renumbered place
        (.error (.fault (.script (.unrecognizedLines (bad.map diagnostic)))))
        (.error (.fault (.script (.unrecognizedLines (bad.map fun entry =>
          diagnostic (numberBehind place entry.1, entry.2))))))

/-- Whether the approval of a script comes to the same without a line at some place and with it. -/
inductive ApprovalsSkip (place : Nat) (content : String) :
    Except Failure (List Action × List Line) → Except Failure (List Action × List Line) → Prop where
  | refused {failure failure' : Failure} :
      Renumbered place (.error failure) (.error failure') →
      ApprovalsSkip place content (.error failure) (.error failure')
  | approved (others : List Action) (front back : List Line) {extra : List Line} :
      extra ∈ [[], [Line.text content]] →
      ApprovalsSkip place content (.ok (Comments.actions ++ others, front ++ back))
        (.ok (Comments.actions ++ others, front ++ (extra ++ back)))

/-- Whether the run of a script comes to the same without a line at some place and with it: it has
the same result, except for numbers in a report, it leaves the same, and the events are the same,
except that actions for comments are asked about the line. -/
structure SkipsLine (host : Host Memory) (place : Nat) (content : String) (fuel : Nat)
    (source : Value) (session : Session Memory) (fuel' : Nat) (source' : Value)
    (session' : Session Memory) : Prop where
  result : Renumbered place ((script host fuel source).run session).1
    ((script host fuel' source').run session').1
  left : ((script host fuel' source').run session').2.Alike
    ((script host fuel source).run session).2
  events : Widened (AsksComment content) (runEvents host fuel' source' session')
    (runEvents host fuel source session)

section Put

variable {fuel fuel' : Nat} {source source' : Value} {session session' : Session Memory}

/-- A comment that is put among the items of a script is approved with them, and does not count. -/
theorem approve_put (ignores : host.IgnoresNotices) (skipped : Comments.Skipped content.toList)
    {before after : List Value} {listing listing' : World Memory}
    (first : ∀ actions last, (Engine.prepare host fuel).run listing = (.ok actions, last) →
      ∃ others, actions = Comments.actions ++ others)
    (written : (scriptLines host fuel source).run session.world =
      (.ok (Script.ofItems (before ++ after)), listing))
    (put : (scriptLines host fuel' source').run session'.world =
      (.ok (Script.ofItems (before ++ .text content :: after)), listing'))
    (results : ((Engine.prepare host fuel').run listing').1 =
      ((Engine.prepare host fuel).run listing).1)
    (worlds : ((Engine.prepare host fuel').run listing').2.Alike
      ((Engine.prepare host fuel).run listing).2) :
    ApprovalsSkip before.length content ((approve host fuel source).run session.world).1
        ((approve host fuel' source').run session'.world).1 ∧
      ((approve host fuel' source').run session'.world).2.Alike
        ((approve host fuel source).run session.world).2 ∧
      Widened (AsksComment content)
        ((approvalQuestions host fuel' source' session'.world).map Question.event)
        ((approvalQuestions host fuel source session.world).map Question.event) := by
  rcases prepared : (Engine.prepare host fuel).run listing with ⟨answer, ready⟩
  rcases prepared' : (Engine.prepare host fuel').run listing' with ⟨answer', ready'⟩
  rw [prepared, prepared'] at results worlds
  obtain rfl : answer' = answer := results
  cases answer' with
  | error failure =>
      have refused := approve_run_of_unprepared written prepared
      have refused' := approve_run_of_unprepared put prepared'
      refine ⟨?_, ?_, ?_⟩
      · rw [refused, refused']
        exact .refused (.same _)
      · rw [refused, refused']
        exact worlds
      · unfold approvalQuestions
        rw [written, put]
        simp only [prepared, prepared']
        exact .nil
  | ok actions =>
      obtain ⟨others, rfl⟩ := first actions ready prepared
      obtain ⟨recognized, -⟩ := skips_of_skipped skipped host others
      have text := Bundled.Comments.ofText_of_skipped skipped
      have widened := (withLine_numberFrom text (Nat.add_comm 1 before.length) after).beforeFinish
      obtain ⟨⟨outcome, found', found⟩, alike, questions⟩ :=
        diagnostics_withLine ignores recognized widened worlds
      have asked := approvalQuestions_of_prepared written prepared
      have asked' := approvalQuestions_of_prepared put prepared'
      have approval := approve_of_prepared written prepared
      have approval' := approve_of_prepared put prepared'
      unfold Script.ofItems at asked asked' approval approval'
      rw [approval, approval', asked, asked']
      rcases inspection : (diagnostics host (Comments.actions ++ others) (Script.beforeFinish
        (Script.numberFrom 1 (before ++ after)))).run ready with ⟨result, last⟩
      rcases inspection' : (diagnostics host (Comments.actions ++ others) (Script.beforeFinish
        (Script.numberFrom 1 (before ++ .text content :: after)))).run ready' with ⟨result', last'⟩
      rw [inspection] at found alike
      rw [inspection'] at found' alike
      obtain rfl : result = _ := found
      obtain rfl : result' = _ := found'
      refine ⟨?_, ?_, questions⟩
      · rcases outcome with failure | _ | ⟨entry, bad⟩
        · exact .refused (.same _)
        · obtain ⟨front, back, extra, few, long, short⟩ := Script.executedOf_put text before after
          change ApprovalsSkip _ _ (.ok (_, Script.executedOf (before ++ after)))
            (.ok (_, Script.executedOf (before ++ .text content :: after)))
          rw [long, short]
          exact .approved others front back few
        · exact .refused (.reported (entry :: bad))
      · rcases outcome with failure | _ | ⟨entry, bad⟩ <;> exact alike

/-- A run comes to the same without a line and with it if its approval and its course do. -/
theorem skipsLine_of_approvals {place : Nat} (same : session'.state = session.state)
    (approvals : ApprovalsSkip place content ((approve host fuel source).run session.world).1
      ((approve host fuel' source').run session'.world).1)
    (worlds : ((approve host fuel' source').run session'.world).2.Alike
      ((approve host fuel source).run session.world).2)
    (questions : Widened (AsksComment content)
      ((approvalQuestions host fuel' source' session'.world).map Question.event)
      ((approvalQuestions host fuel source session.world).map Question.event))
    (courses : ∀ others front back extra world world', extra ∈ [[], [Line.text content]] →
      (session'.inWorld world').Alike (session.inWorld world) →
      (approve host fuel source).run session.world =
        (.ok (Comments.actions ++ others, front ++ back), world) →
      (approve host fuel' source').run session'.world =
        (.ok (Comments.actions ++ others, front ++ (extra ++ back)), world') →
      Widens host (AsksComment content) (Comments.actions ++ others) (Comments.actions ++ others)
        (runCourse host fuel' (Comments.actions ++ others) (front ++ (extra ++ back))
          (session'.inWorld world'))
        (runCourse host fuel (Comments.actions ++ others) (front ++ back)
          (session.inWorld world))) :
    SkipsLine host place content fuel source session fuel' source' session' := by
  rcases approval : (approve host fuel source).run session.world with ⟨result, world⟩
  rcases approval' : (approve host fuel' source').run session'.world with ⟨result', world'⟩
  rw [approval, approval'] at approvals worlds
  cases approvals with
  | refused renumbered =>
      have refused := script_run_of_refused approval
      have refused' := script_run_of_refused approval'
      refine ⟨?_, ?_, ?_⟩
      · rw [refused, refused']
        exact renumbered
      · rw [refused, refused']
        exact ⟨same, worlds⟩
      · unfold runEvents
        rw [approval, approval']
        simp only [List.append_nil]
        exact questions
  | approved others front back few =>
      have widens := courses others front back _ world world' few ⟨same, worlds⟩ approval approval'
      have ran := script_run_of_approved approval
      have ran' := script_run_of_approved approval'
      refine ⟨?_, ?_, ?_⟩
      · rw [ran, ran', widens.result]
        exact .same _
      · rw [ran, ran']
        exact ⟨congrArg State.withoutTransient widens.session.state, widens.session.world⟩
      · unfold runEvents
        rw [approval, approval']
        simp only []
        exact questions.append widens.events

/-- Comments and blank lines do nothing. However a new engine that skips comments has been used, and
whatever else has been registered with it: when two scripts are read as the same items, except that
one has a comment or a blank line at some place, then from the same state without a line at hand
they come to the same, if either of them ends; the one with the line takes at most one step more. -/
theorem script_comment (ignores : host.IgnoresNotices)
    (keeps : host.KeepsTo (World.KeepsFirst Comments.actions)) {options : Options}
    {start : World Memory} {row : List Use} {before after : List Value}
    {listing listing' : World Memory}
    (new : start.engine = Engine.ofOptions options) (common : options.common.truthy = true)
    (used : session.world.engine = (start.after host row).engine)
    (skipped : Comments.Skipped content.toList) (lacks : LacksLine session)
    (same : session'.state = session.state)
    (written : (scriptLines host fuel source).run session.world =
      (.ok (Script.ofItems (before ++ after)), listing))
    (put : (scriptLines host fuel source').run session'.world =
      (.ok (Script.ofItems (before ++ .text content :: after)), listing'))
    (alike : listing'.Alike listing) :
    (((script host fuel source').run session').1 ≠ .error .outOfFuel →
      SkipsLine host before.length content fuel source session fuel source' session') ∧
    (((script host fuel source).run session).1 ≠ .error .outOfFuel →
      SkipsLine host before.length content fuel source session (fuel + 1) source' session') := by
  have begins : session.world.engine.BeginsWith Comments.actions := by
    rw [used]
    refine (after_keepsFirst keeps row start ?_).1
    rw [new]
    exact Engine.ofOptions_beginsWith common
  have listed : listing.engine.BeginsWith Comments.actions := by
    have kept := scriptLines_is (sequential_leads (World.KeepsFirst Comments.actions))
      keeps.toQueriesAre fuel source session.world begins
    rw [written] at kept
    exact kept.1
  have first (actions : List Action) (last : World Memory)
      (prepared : (Engine.prepare host fuel).run listing = (.ok actions, last)) :
      ∃ others, actions = Comments.actions ++ others :=
    Engine.prepare_begins keeps listed prepared
  have lacks' : LacksLine session' := (congrArg (Entries.get? · State.lineName) same).trans lacks
  have unfolding {others : List Action} {world world' : World Memory}
      (places : (session'.inWorld world').Alike (session.inWorld world)) (front back : List Line) :=
    have lacking : LacksLine (session'.inWorld world') := lacks'
    runCourse_unfold ignores (skips_of_skipped skipped host others).2 fuel front back lacking places
  obtain ⟨results, worlds⟩ := ignores.prepare fuel listing' listing alike
  constructor
  · intro ended
    obtain ⟨approvals, left, questions⟩ :=
      approve_put ignores skipped first written put results worlds
    refine skipsLine_of_approvals same approvals left questions ?_
    intro others front back extra world world' few places approved approved'
    rw [script_run_of_approved approved'] at ended
    simp only [List.mem_cons, List.not_mem_nil, or_false] at few
    rcases few with rfl | rfl
    · exact runCourse_alike (forall₂_actsAlike_refl ignores _) fuel _ places
    · exact (unfolding places front back).1 ended
  · intro ended
    have fueled : ((Engine.prepare host fuel).run listing).1 ≠ .error .outOfFuel := by
      intro cutOff
      rcases prepared : (Engine.prepare host fuel).run listing with ⟨result, ready⟩
      rw [prepared] at cutOff
      obtain rfl : result = .error .outOfFuel := cutOff
      have refused := approve_run_of_unprepared written prepared
      exact ended (congrArg Prod.fst (script_run_of_refused refused))
    have again := Engine.prepare_add_fuel host fuel 1 listing' fun cutOff =>
      fueled (results.symm.trans cutOff)
    have read := scriptLines_add_fuel host fuel 1 source' session'.world
    rw [put] at read
    rw [← again] at results worlds
    obtain ⟨approvals, left, questions⟩ :=
      approve_put ignores skipped first written (read (by rintro ⟨⟩)) results worlds
    refine skipsLine_of_approvals same approvals left questions ?_
    intro others front back extra world world' few places approved approved'
    rw [script_run_of_approved approved] at ended
    simp only [List.mem_cons, List.not_mem_nil, or_false] at few
    rcases few with rfl | rfl
    · have longer : runCourse host (fuel + 1) (Comments.actions ++ others) (front ++ back)
          (session.inWorld world) =
            runCourse host fuel (Comments.actions ++ others) (front ++ back)
              (session.inWorld world) := course_add_fuel ended 1
      rw [← longer]
      exact runCourse_alike (forall₂_actsAlike_refl ignores _) (fuel + 1) _ places
    · exact (unfolding places front back).2 ended

end Put

/-- The memory of a library with a matcher for leaves and a handler that counts them. -/
def counting : Library.Memory :=
  { functions := #[.matching "leaf" (.equalTo (.text "leaf")) false,
      .handling "count" [.increment "leaves"] (.recipe (.plain .null)) false] }

/-- A new engine that skips comments. -/
def skipping : World Library.Memory :=
  ⟨Engine.ofOptions ⟨.bool true, []⟩, [], counting⟩

/-- The handler for leaves is registered. -/
def planting : List Use :=
  [.register (.dict [(.callable ⟨0, "leaf"⟩, .callable ⟨1, "count"⟩)])]

/-- A comment that says FINISH does not end a script: the leaf behind it is counted too. -/
theorem script_comment_leaf :
    let host := Library.host 9 1
    let session : Session Library.Memory := ⟨[], skipping.after host planting⟩
    SkipsLine host 1 " # FINISH" 9 (.list [.text "leaf", .text "leaf"]) session 9
        (.list [.text "leaf", .text " # FINISH", .text "leaf"]) session ∧
      (((script host 9 (.list [.text "leaf", .text " # FINISH", .text "leaf"])).run
        session).2.state.get? "leaves").bind Value.wholeNumber? = some 2 := by
  intro host session
  have skipped : Comments.Skipped " # FINISH".toList := by
    have comment : Comments.Skipped ([' '] ++ '#' :: " FINISH".toList) :=
      .hash _ (List.forall_mem_singleton.mpr rfl)
    exact comment
  have used : session.world.engine = (skipping.after host planting).engine := rfl
  have ends : ((script host 9 (.list [.text "leaf", .text " # FINISH", .text "leaf"])).run
      session).1.isOk = true := by
    decide +kernel
  obtain ⟨same, -⟩ := script_comment (Library.ignoresNotices_host 9 1)
    (Library.keepsFirst_host _ 9 1) rfl rfl used skipped rfl rfl
    (scriptLines_run (.list ([.text "leaf"] ++ [.text "leaf"])) 9 session.world)
    (scriptLines_run (.list ([.text "leaf"] ++ .text " # FINISH" :: [.text "leaf"])) 9
      session.world) (.refl _)
  exact ⟨same (ne_outOfFuel_of_isOk ends), by decide +kernel⟩

end LineScript.Run
