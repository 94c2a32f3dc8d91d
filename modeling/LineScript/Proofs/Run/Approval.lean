import LineScript.Proofs.Run.Origin
import LineScript.Proofs.Run.Queries
import LineScript.Proofs.Script.Numbering

/-!
# The approval of a script

Before a script is executed its lines are inspected one after the other: some action has to match
each text line before FINISH. When the registrations resolve and the matchers that are asked
return, the run fails with the diagnostics of exactly the lines that none matches
(`LineScript.Run.script_approval`).
-/

namespace LineScript.Run

variable {Memory : Type} {host : Host Memory} {actions : List Action}

/-- Whether the matchers that are asked about a line all return, up to the first that matches. -/
def Answered (host : Host Memory) (line : Line) : List Action → World Memory → Prop
  | [], _ => True
  | action :: others, world =>
    if action.accepts line.toValue then
      ∃ taken after, (action.matched host line).run world = (.ok taken, after) ∧
        (taken = none → Answered host line others after)
    else Answered host line others world

/-- Whether no action matches a line, when those that it is offered to are asked in order. -/
def NoneMatches (host : Host Memory) (line : Line) : List Action → World Memory → Prop
  | [], _ => True
  | action :: others, world =>
    if action.accepts line.toValue then
      ∃ after, (action.matched host line).run world = (.ok none, after) ∧
        NoneMatches host line others after
    else NoneMatches host line others world

/-- Matchers that always return do so when they are asked about a line. -/
theorem answered_of_returning {line : Line}
    (returning : ∀ action ∈ actions, ∀ world, ∃ taken after,
      (action.matched host line).run world = (.ok taken, after)) (world : World Memory) :
    Answered host line actions world := by
  induction actions generalizing world with
  | nil => trivial
  | cons action others ih =>
      have rest := ih fun other member => returning other (List.mem_cons_of_mem action member)
      unfold Answered
      by_cases accepted : action.accepts line.toValue
      · rw [if_pos accepted]
        obtain ⟨taken, after, asked⟩ := returning action List.mem_cons_self world
        exact ⟨taken, after, asked, fun _ => rest after⟩
      · rw [if_neg accepted]
        exact rest world

/-- The diagnostic of a line that no action matches. -/
def diagnostic (line : Nat × String) : String :=
  "Unrecognized Line: #" ++ toString line.1 ++ ": " ++ line.2

/-- A line is not recognized exactly when no action matches it. -/
theorem isRecognized_run {line : Line} {world : World Memory}
    (answered : Answered host line actions world) :
    ∃ recognized after, (isRecognized host line actions).run world = (.ok recognized, after) ∧
      (recognized = false ↔ NoneMatches host line actions world) := by
  induction actions generalizing world with
  | nil => exact ⟨false, world, rfl, ⟨fun _ => trivial, fun _ => rfl⟩⟩
  | cons action others ih =>
      unfold Answered at answered
      unfold isRecognized NoneMatches
      by_cases accepted : action.accepts line.toValue
      · rw [if_pos accepted] at answered
        obtain ⟨taken, after, asked, rest⟩ := answered
        rw [if_pos accepted, if_pos accepted, run_bind_of_ok asked]
        cases taken with
        | none =>
            obtain ⟨recognized, last, run, iff⟩ := ih (rest rfl)
            refine ⟨recognized, last, run, ?_⟩
            rw [iff]
            constructor
            · intro none
              exact ⟨after, asked, none⟩
            · rintro ⟨after', asked', none⟩
              rw [asked] at asked'
              cases asked'
              exact none
        | some taken =>
            refine ⟨true, after, rfl, ?_⟩
            constructor
            · intro impossible
              cases impossible
            · rintro ⟨after', asked', -⟩
              rw [asked] at asked'
              cases asked'
      · rw [if_neg accepted] at answered
        rw [if_neg accepted, if_neg accepted]
        exact ih answered

/-- The inspection of some lines adds the diagnostic of the first, if no action matches it, to
those of the others. -/
theorem diagnostics_cons {number : Nat} {line : Line} {world : World Memory}
    (answered : ∀ content, line = .text content → Answered host line actions world) :
    ∃ (own : List (Nat × String)) (next : World Memory),
      (∀ others, (diagnostics host actions ((number, line) :: others)).run world =
        (((diagnostics host actions others).run next).1.map (own.map diagnostic ++ ·),
          ((diagnostics host actions others).run next).2)) ∧
      (∀ entry, entry ∈ own ↔ entry.1 = number ∧ line = .text entry.2 ∧
        NoneMatches host line actions world) ∧
      (own.map Prod.fst).Sublist [number] := by
  have unchanged (others : List (Nat × Line)) (world : World Memory) :
      (diagnostics host actions others).run world =
        (((diagnostics host actions others).run world).1.map (([] : List String) ++ ·),
          ((diagnostics host actions others).run world).2) := by
    rcases (diagnostics host actions others).run world with ⟨failure | found, last⟩ <;> rfl
  cases line with
  | sentinel mark =>
      refine ⟨[], world, ?_, ?_, List.nil_sublist _⟩
      · intro others
        exact unchanged others world
      · intro entry
        constructor
        · intro member
          cases member
        · rintro ⟨-, impossible, -⟩
          cases impossible
  | text content =>
      obtain ⟨recognized, after, run, iff⟩ := isRecognized_run (answered content rfl)
      cases recognized with
      | true =>
          refine ⟨[], after, ?_, ?_, List.nil_sublist _⟩
          · intro others
            rw [diagnostics, run_bind_of_ok run]
            exact unchanged others after
          · intro entry
            constructor
            · intro member
              cases member
            · rintro ⟨-, -, none⟩
              exact absurd (iff.mpr none) Bool.noConfusion
      | false =>
          refine ⟨[(number, content)], after.noting (.unrecognized number (.text content)), ?_, ?_,
            List.Sublist.refl _⟩
          · intro others
            rw [diagnostics, run_bind_of_ok run]
            simp only [Bool.false_eq_true, ↓reduceIte]
            rw [run_bind_of_ok (Query.run_note _ after)]
            rcases found : (diagnostics host actions others).run
              (after.noting (.unrecognized number (.text content))) with ⟨failure | others, last⟩
            · rw [run_bind_of_error found]
              rfl
            · rw [run_bind_of_ok found]
              rfl
          · intro entry
            rw [List.mem_singleton]
            constructor
            · rintro rfl
              exact ⟨rfl, rfl, iff.mp rfl⟩
            · rintro ⟨same, text, -⟩
              cases text
              exact Prod.ext same rfl

/-- The world after the inspection of some lines. -/
def inspected (host : Host Memory) (actions : List Action) (lines : List (Nat × Line))
    (world : World Memory) : World Memory :=
  ((diagnostics host actions lines).run world).2

/-- Whether the matchers that are asked about some lines all return. -/
def AllAnswered (host : Host Memory) (actions : List Action) (lines : List (Nat × Line))
    (world : World Memory) : Prop :=
  ∀ front number content back, lines = front ++ (number, .text content) :: back →
    Answered host (.text content) actions (inspected host actions front world)

/-- When the matchers that are asked return, the inspection of some lines yields the diagnostics of
those that no action matches, in order. -/
theorem diagnostics_run {lines : List (Nat × Line)} {world : World Memory}
    (answered : AllAnswered host actions lines world) :
    ∃ (bad : List (Nat × String)) (last : World Memory),
      (diagnostics host actions lines).run world = (.ok (bad.map diagnostic), last) ∧
      (bad.map Prod.fst).Sublist (lines.map Prod.fst) ∧
      ∀ entry, entry ∈ bad ↔ ∃ front back,
        lines = front ++ (entry.1, .text entry.2) :: back ∧
        NoneMatches host (.text entry.2) actions (inspected host actions front world) := by
  induction lines generalizing world with
  | nil =>
      refine ⟨[], world, rfl, List.Sublist.refl _, ?_⟩
      intro entry
      constructor
      · intro member
        cases member
      · rintro ⟨front, back, split, -⟩
        exact absurd split.symm (List.append_ne_nil_of_right_ne_nil _ (List.cons_ne_nil _ _))
  | cons head others ih =>
      obtain ⟨number, line⟩ := head
      have first : ∀ content, line = .text content → Answered host line actions world := by
        rintro content rfl
        exact answered [] number content others rfl
      obtain ⟨own, next, run, iff, numbers⟩ := diagnostics_cons first
      have behind : AllAnswered host actions others next := by
        intro front number' content back split
        have rest := answered ((number, line) :: front) number' content back (by rw [split]; rfl)
        unfold inspected at rest ⊢
        rw [run] at rest
        exact rest
      obtain ⟨bad, last, found, sublist, exactly⟩ := ih behind
      refine ⟨own ++ bad, last, ?_, ?_, ?_⟩
      · rw [run, found, List.map_append]
        rfl
      · rw [List.map_append]
        exact numbers.append sublist
      · intro entry
        rw [List.mem_append, iff, exactly]
        constructor
        · rintro (⟨rfl, rfl, none⟩ | ⟨front, back, rfl, none⟩)
          · exact ⟨[], others, rfl, none⟩
          · refine ⟨(number, line) :: front, back, rfl, ?_⟩
            unfold inspected at none ⊢
            rw [run]
            exact none
        · rintro ⟨front, back, split, none⟩
          cases front with
          | nil =>
              cases split
              exact Or.inl ⟨rfl, rfl, none⟩
          | cons head front =>
              cases split
              refine Or.inr ⟨front, back, rfl, ?_⟩
              unfold inspected at none ⊢
              rw [run] at none
              exact none

/-- The lines of a text, a list or a tuple are those of its items. -/
theorem scriptLines_run {source : Value} {items : List Value}
    (consists : Script.ConsistsOf source items) (fuel : Nat) (world : World Memory) :
    (scriptLines host fuel source).run world = (.ok (Script.ofItems items), world) := by
  cases consists with
  | text cut =>
      rw [← Text.cut_iff.mp cut]
      rfl
  | list => rfl
  | tuple => rfl

theorem preflight_run {lines : List (Nat × Line)} {world last : World Memory}
    {found : List String}
    (inspection : (diagnostics host actions lines).run world = (.ok found, last)) :
    (preflight host actions lines).run world =
      if found = [] then (.ok (), last)
      else (.error (.fault (.script (.unrecognizedLines found))), last) := by
  unfold preflight
  rw [run_bind_of_ok inspection]
  cases found with
  | nil => rfl
  | cons first others => rfl

/-- A script of some items is approved, or refused with the diagnostics of exactly the lines that
no action matches. -/
theorem approve_run {source : Value} {items : List Value} {fuel : Nat} {start world : World Memory}
    (consists : Script.ConsistsOf source items)
    (prepared : (Engine.prepare host fuel).run start = (.ok actions, world))
    (answered : ∀ before number content,
      Script.StandsBehind before items number (.text content) →
      Answered host (.text content) actions
        (inspected host actions (Script.ofItems before) world)) :
    ∃ (bad : List (Nat × String)) (last : World Memory),
      bad.Pairwise (fun first second => first.1 < second.1) ∧
      (∀ entry, entry ∈ bad ↔ ∃ before,
        Script.StandsBehind before items entry.1 (.text entry.2) ∧
        NoneMatches host (.text entry.2) actions
          (inspected host actions (Script.ofItems before) world)) ∧
      (approve host fuel source).run start =
        if bad = [] then
          (.ok (actions, (Script.beforeFinish (Script.ofItems items)).map Prod.snd), last)
        else (.error (.fault (.script (.unrecognizedLines (bad.map diagnostic)))), last) := by
  have all : AllAnswered host actions (Script.beforeFinish (Script.ofItems items)) world := by
    intro front number content back split
    obtain ⟨before, stands, rfl⟩ := Script.exists_standsBehind split
    exact answered before number content stands
  obtain ⟨bad, last, inspection, sublist, exactly⟩ := diagnostics_run all
  refine ⟨bad, last, ?_, ?_, ?_⟩
  · have numbers := List.pairwise_map.mpr (Script.beforeFinish_increasing items)
    exact List.pairwise_map.mp (numbers.sublist sublist)
  · intro entry
    rw [exactly]
    constructor
    · rintro ⟨front, back, split, none⟩
      obtain ⟨before, stands, rfl⟩ := Script.exists_standsBehind split
      exact ⟨before, stands, none⟩
    · rintro ⟨before, stands, none⟩
      obtain ⟨back, split⟩ := stands.beforeFinish_eq Line.noConfusion
      exact ⟨_, back, split, none⟩
  · have passed := preflight_run inspection
    unfold approve
    rw [run_bind_of_ok (scriptLines_run consists fuel start), run_bind_of_ok prepared]
    by_cases clean : bad = []
    · rw [if_pos clean]
      rw [if_pos (by rw [clean]; rfl)] at passed
      rw [run_bind_of_ok passed]
      rfl
    · rw [if_neg clean]
      rw [if_neg (fun none => clean (List.map_eq_nil_iff.mp none))] at passed
      rw [run_bind_of_error passed]

/-- Whether a failure reports unrecognized lines. -/
def ReportsLines (failure : Failure) : Prop :=
  ∃ fault lines, failure = .fault (.script fault) ∧ fault.kind = .unrecognizedLines lines

/-- Executing lines adds no failure of its own that reports unrecognized lines. -/
theorem Origin.of_reportsLines {executions : List (Execution Memory)} {failure : Failure}
    (origin : Origin host actions executions failure) (reports : ReportsLines failure) :
    (∃ executed ∈ executions, ∃ call ∈ executed.invocations, call.result = .error failure) ∨
      ∃ action ∈ actions, ∃ line world,
        ((action.matched host line).run world).1 = .error failure := by
  obtain ⟨fault, lines, rfl, kind⟩ := reports
  cases origin with
  | handler member called raised => exact Or.inl ⟨_, member, _, called, raised⟩
  | matcher member raised => exact Or.inr ⟨_, member, _, _, raised⟩
  | reference name same =>
      cases same
      cases kind
  | unrecognized content same =>
      cases same
      cases kind

/-- Approval leaves no trace and is exact. A run that fails before its lines are executed leaves
the state as it is, and it would fail in the same way if handlers did anything else. When the
registrations resolve and the matchers that are asked return, a text, a list or a tuple fails with
the diagnostics of exactly the lines that no action matches, in order, if there are any; otherwise
it is approved, and if its run fails with a report of unrecognized lines, then this is one of a
handler or a matcher that is called while lines are executed. -/
theorem script_approval (host : Host Memory) (fuel : Nat) (source : Value)
    (session : Session Memory) :
    (∀ failure world, (approve host fuel source).run session.world = (.error failure, world) →
      ∀ other, host.SameQueries other →
        (script other fuel source).run session = (.error failure, session.inWorld world)) ∧
    ∀ items actions world, Script.ConsistsOf source items →
      (Engine.prepare host fuel).run session.world = (.ok actions, world) →
      (∀ before number content, Script.StandsBehind before items number (.text content) →
        Answered host (.text content) actions
          (inspected host actions (Script.ofItems before) world)) →
      ∃ (bad : List (Nat × String)) (last : World Memory),
        bad.Pairwise (fun first second => first.1 < second.1) ∧
        (∀ entry, entry ∈ bad ↔ ∃ before,
          Script.StandsBehind before items entry.1 (.text entry.2) ∧
          NoneMatches host (.text entry.2) actions
            (inspected host actions (Script.ofItems before) world)) ∧
        (bad ≠ [] → (script host fuel source).run session =
          (.error (.fault (.script (.unrecognizedLines (bad.map diagnostic)))),
            session.inWorld last)) ∧
        (bad = [] → ∃ lines,
          (approve host fuel source).run session.world = (.ok (actions, lines), last) ∧
          ∀ failure, ((script host fuel source).run session).1 = .error failure →
            ReportsLines failure →
            (∃ turn ∈ (runCourse host fuel actions lines (session.inWorld last)).turns,
              ∃ call ∈ turn.invocations, call.result = .error failure) ∨
            ∃ action ∈ actions, ∃ line world,
              ((action.matched host line).run world).1 = .error failure) := by
  constructor
  · intro failure world refused other same
    rw [approve_congr same] at refused
    exact script_run_of_refused refused
  · intro items actions world consists prepared answered
    obtain ⟨bad, last, increasing, exactly, approval⟩ := approve_run consists prepared answered
    refine ⟨bad, last, increasing, exactly, ?_, ?_⟩
    · intro unmatched
      rw [if_neg unmatched] at approval
      exact script_run_of_refused approval
    · intro clean
      rw [if_pos clean] at approval
      refine ⟨_, approval, ?_⟩
      intro failure failed reports
      rw [script_run_of_approved approval] at failed
      have fueled : failure ≠ .outOfFuel := by
        rintro rfl
        obtain ⟨fault, lines, impossible, -⟩ := reports
        cases impossible
      rcases (exists_origin failed fueled).of_reportsLines reports with
        ⟨executed, member, call, called, raised⟩ | raised
      · obtain ⟨turn, taken, rfl⟩ := List.mem_map.mp member
        exact Or.inl ⟨turn, taken, call, called, raised⟩
      · exact Or.inr raised

/-- An action that matches the line `leaf`. -/
def recognizing : List Action :=
  [.ofName "leaf" (.call ⟨0, "leaf"⟩) false]

/-- The third item of a list is reported under its number, although the second is empty. -/
theorem script_approval_third :
    ∃ bad : List (Nat × String), (3, "twig") ∈ bad ∧
      ((script Host.ofNames 5 (.list [.text "leaf", .text "", .text "twig"])).run
        (Session.ofActions recognizing)).1 =
          .error (.fault (.script (.unrecognizedLines (bad.map diagnostic)))) := by
  have prepared : (Engine.prepare Host.ofNames 5).run (Session.ofActions recognizing).world =
      (.ok recognizing, (Session.ofActions recognizing).world) := by
    rfl
  obtain ⟨bad, last, -, exactly, refused, -⟩ :=
    (script_approval Host.ofNames 5 (.list [.text "leaf", .text "", .text "twig"])
      (Session.ofActions recognizing)).2 _ _ _ (.list _) prepared (by
        intro before number content _
        refine answered_of_returning ?_ _
        intro action member world
        rw [List.mem_singleton.mp member]
        exact ⟨_, _, matched_ofName _ _ _ _ world⟩)
  have listed : (3, "twig") ∈ bad := by
    refine (exactly (3, "twig")).mpr ⟨[.text "leaf", .text ""], ⟨?_, rfl, ?_⟩, ?_⟩
    · refine ⟨.text "twig", [], rfl, ?_, by decide⟩
      intro same
      exact absurd (Value.text.inj same) (by decide)
    · refine List.forall_mem_cons.mpr ⟨by decide, List.forall_mem_cons.mpr ⟨by decide, ?_⟩⟩
      exact List.forall_mem_nil _
    · exact ⟨_, matched_ofName _ _ _ _ _, trivial⟩
  exact ⟨bad, listed, congrArg Prod.fst (refused (List.ne_nil_of_mem listed))⟩

/-- A host whose handlers run a script of one line that no action matches. -/
def nesting : Host Unit :=
  { Host.ofNames with
    callHandler _ _ := do
      script Host.ofNames 5 (.list [.text "twig"])
      return .ready .null }

/-- A run can fail with a report of lines although an action matches each of its own. -/
theorem reports_without_unmatched :
    (Engine.prepare nesting 5).run (Session.ofActions recognizing).world =
        (.ok recognizing, (Session.ofActions recognizing).world) ∧
      (∀ action ∈ recognizing, ∀ line world, ∃ taken,
        (action.matched nesting line).run world = (.ok taken, world)) ∧
      ((script nesting 5 (.list [.text "leaf"])).run (Session.ofActions recognizing)).1 =
        .error (.fault (.script (.unrecognizedLines ["Unrecognized Line: #1: twig"]))) ∧
      ¬∃ before number content,
        Script.StandsBehind before [.text "leaf"] number (.text content) ∧
        NoneMatches nesting (.text content) recognizing
          (inspected nesting recognizing (Script.ofItems before)
            (Session.ofActions recognizing).world) := by
  have same : nesting.SameQueries Host.ofNames := ⟨rfl, rfl, rfl, rfl⟩
  have matching (action : Action) (line : Line) :
      action.matched nesting line = action.matched Host.ofNames line :=
    Matcher.arguments_congr same action.matcher line.toValue
  refine ⟨rfl, ?_, rfl, ?_⟩
  · intro action member line world
    rw [List.mem_singleton.mp member, matching]
    exact ⟨_, matched_ofName _ _ _ line world⟩
  · rintro ⟨before, number, content, ⟨⟨item, after, split, -, same⟩, -, -⟩, none⟩
    cases before with
    | cons first before =>
        exact absurd (List.cons.inj split).2.symm
          (List.append_ne_nil_of_right_ne_nil before (List.cons_ne_nil item after))
    | nil =>
        obtain ⟨rfl, -⟩ := List.cons.inj split
        have text : Line.ofValue (.text "leaf") = .text "leaf" := by decide
        obtain rfl := Line.text.inj (text.symm.trans same)
        obtain ⟨after, asked, -⟩ := none
        rw [matching] at asked
        cases (matched_ofName "leaf" _ _ (.text "leaf") _).symm.trans asked

end LineScript.Run
