import LineScript.Proofs.Run.DepthFirst
import LineScript.Proofs.Run.Handing
import LineScript.Proofs.Run.Origin

/-!
# Layered macros terminate

Lines that replace a line are executed in turn, and may be replaced again. A row of actions is
*layered* when some rank of text lines falls with each replacement. Then the descent through a row
of lines is finite, by induction on the highest rank in the row and on the row itself: whatever the
length of a replacement is, it only holds lower lines. Control lines are never replaced, so their
place in a replacement, and what is answered to them, does not matter. With the fuel that such a
descent takes, the execution of a queue comes to its end
(`LineScript.Run.executeQueue_ends`).
-/

namespace LineScript.Run

variable {Memory : Type} {host : Host Memory} {actions : List Action}

/-- Whether the matchers and the handlers of some actions always return or fail: none of them is
cut off. -/
structure Answering (host : Host Memory) (actions : List Action) : Prop where
  matcher : ∀ action ∈ actions, ∀ line world,
    ((action.matched host line).run world).1 ≠ .error .outOfFuel
  handler : ∀ action ∈ actions, ∀ arguments session,
    ((Action.handle host action.handler arguments).run session).1 ≠ .error .outOfFuel

/-- Whether in each session a text line is only replaced by text lines of lower ranks, besides any
control lines. -/
def Layered (host : Host Memory) (actions : List Action) (rank : String → Nat) : Prop :=
  ∀ content session lines,
    ((executeLine host actions (.text content)).run session).1 = .ok (.rewrite lines) →
      ∀ other, Line.text other ∈ lines → rank other < rank content

/-- The height of a line: control lines lie below all text lines. -/
def heightOf (rank : String → Nat) : Line → Nat
  | .text content => rank content + 1
  | .sentinel _ => 0

/-- The execution of a line is cut off only if a matcher or a handler is. -/
theorem execution_ne_outOfFuel (answering : Answering host actions) (line : Line)
    (session : Session Memory) :
    (execution host actions line session).result ≠ .error .outOfFuel := by
  intro cutOff
  cases execution_origin cutOff with
  | handler member called raised =>
      rw [List.mem_singleton.mp member] at called
      have offers := offering_offers host line actions .start (session.noting (.executing line))
      obtain ⟨listed, -, made⟩ := offers.invocations called
      rw [made] at raised
      exact answering.handler _ listed _ _ raised
  | matcher member raised => exact answering.matcher _ member _ _ raised
  | reference name same => cases same
  | unrecognized content same => cases same

section Descending

variable {rank : String → Nat}

/-- A control line is never replaced. -/
theorem replacement_sentinel (mark : Sentinel) (session : Session Memory) :
    (execution host actions (.sentinel mark) session).replacement = [] := by
  have unreplaced (progress : LineProgress) (lines : List Line) :
      outcome (.sentinel mark) progress ≠ .ok (.rewrite lines) := by
    unfold outcome
    split <;> simp_all
  unfold Execution.replacement
  split
  · rename_i lines rewritten
    rw [execution_result] at rewritten
    cases offered : (offering host (.sentinel mark) actions .start
        (session.noting (.executing (.sentinel mark)))).result with
    | error failure =>
        rw [offered] at rewritten
        cases rewritten
    | ok progress =>
        rw [offered] at rewritten
        simp only [Except.bind] at rewritten
        cases ended : outcome (.sentinel mark) progress with
        | error fault =>
            rw [ended] at rewritten
            cases rewritten
        | ok outcome =>
            rw [ended] at rewritten
            cases rewritten
            exact absurd ended (unreplaced progress lines)
  · rfl

/-- The lines that replace a line are lower than the line. -/
theorem height_lt_of_mem_replacement (layered : Layered host actions rank) {line other : Line}
    {session : Session Memory}
    (member : other ∈ (execution host actions line session).replacement) :
    heightOf rank other < heightOf rank line := by
  cases line with
  | sentinel mark =>
      rw [replacement_sentinel] at member
      cases member
  | text content =>
      cases other with
      | sentinel mark => exact Nat.succ_pos _
      | text below =>
          unfold Execution.replacement at member
          split at member
          · rename_i lines rewritten
            have left : ((executeLine host actions (.text content)).run session).1 =
                .ok (.rewrite lines) := by
              rw [executeLine_run]
              exact rewritten
            exact Nat.succ_lt_succ (layered content session lines left below member)
          · cases member

/-- With layered actions, a row of lines can be descended in any session. -/
theorem exists_descent_of_layered (layered : Layered host actions rank) (bound : Nat)
    (lines : List Line) (low : ∀ line ∈ lines, heightOf rank line < bound) (started : Bool)
    (session : Session Memory) :
    ∃ descent, Descends host actions lines started session descent := by
  -- The bound falls when a replacement is entered, and the row gets shorter behind it.
  induction bound generalizing lines started session with
  | zero =>
      cases lines with
      | nil => exact ⟨_, .nil started session⟩
      | cons line others => exact absurd (low line List.mem_cons_self) (Nat.not_lt_zero _)
  | succ bound below =>
      induction lines generalizing started session with
      | nil => exact ⟨_, .nil started session⟩
      | cons line others behind =>
          obtain ⟨own, rest⟩ := List.forall_mem_cons.mp low
          cases concluded : conclusion host actions
              (started || (execution host actions line (session.withLine line)).isFinish)
              (execution host actions line (session.withLine line)) with
          | some account => exact ⟨_, .last rfl concluded⟩
          | none =>
              have lower : ∀ other ∈
                  (execution host actions line (session.withLine line)).replacement,
                  heightOf rank other < bound := by
                intro other member
                have falls := height_lt_of_mem_replacement layered member
                omega
              obtain ⟨inside, entered⟩ := below _ lower
                (started || (execution host actions line (session.withLine line)).isFinish)
                (execution host actions line (session.withLine line)).after.withoutLine
              cases left : inside.ending with
              | final result => exact ⟨_, .inside rfl concluded entered left⟩
              | exhausted finishStarted =>
                  obtain ⟨after, resumed⟩ := behind rest finishStarted inside.session
                  exact ⟨_, .next rfl concluded entered left resumed⟩

/-- Some bound lies above all lines of a row. -/
theorem exists_heightOf_lt (rank : String → Nat) (lines : List Line) :
    ∃ bound, ∀ line ∈ lines, heightOf rank line < bound := by
  induction lines with
  | nil => exact ⟨0, List.forall_mem_nil _⟩
  | cons line others ih =>
      obtain ⟨bound, low⟩ := ih
      refine ⟨max bound (heightOf rank line + 1), List.forall_mem_cons.mpr ⟨?_, ?_⟩⟩
      · omega
      · intro other member
        have lower := low other member
        omega

end Descending

/-- What is left to happen after a line is cut off only if a matcher or a handler is. -/
theorem conclusion_ne_outOfFuel (answering : Answering host actions) {started : Bool} {line : Line}
    {session : Session Memory} {account : Account Memory}
    (concluded : conclusion host actions started (execution host actions line session) =
      some account) : account.result ≠ .error .outOfFuel := by
  intro cutOff
  unfold conclusion at concluded
  cases ended : (execution host actions line session).result with
  | ok outcome =>
      rw [ended] at concluded
      cases outcome with
      | stopScript =>
          by_cases finishing : started
          · simp only [finishing, ↓reduceIte, Option.some.injEq] at concluded
            rw [← concluded] at cutOff
            cases cutOff
          · simp only [finishing, Bool.false_eq_true, ↓reduceIte, Option.some.injEq] at concluded
            rw [← concluded, result_account] at cutOff
            unfold finishCourse at cutOff
            cases finished : (turnOf host actions finishLine []
                (execution host actions line session).after.withoutLine).result with
            | ok outcome =>
                simp only [finished] at cutOff
                cases cutOff
            | error failure =>
                simp only [finished] at cutOff
                cases cutOff
                exact execution_ne_outOfFuel answering _ _ finished
      | proceed => cases concluded
      | stopLine => cases concluded
      | rewrite lines => cases concluded
  | error failure =>
      rw [ended] at concluded
      cases concluded
      rw [result_account] at cutOff
      rcases failureCourse_error cutOff with same | ⟨cleaned, -⟩
      · rw [← same] at ended
        exact execution_ne_outOfFuel answering line session ended
      · exact execution_ne_outOfFuel answering _ _ cleaned

/-- A descent is cut off only if a matcher or a handler is. -/
theorem Descends.ne_outOfFuel (answering : Answering host actions) {lines : List Line}
    {started : Bool} {session : Session Memory} {descent : Descent Memory}
    (descended : Descends host actions lines started session descent) :
    descent.ending ≠ .final (.error .outOfFuel) := by
  induction descended with
  | nil started session =>
      intro left
      cases left
  | last done concluded =>
      subst done
      intro left
      exact conclusion_ne_outOfFuel answering concluded (Ending.final.inj left)
  | inside _ _ _ _ ih => exact ih
  | next _ _ _ _ _ _ last => exact last

theorem executeQueue_nil (host : Host Memory) (actions : List Action) (fuel : Nat)
    (started : Bool) : executeQueue host actions fuel [] started = pure () := by
  cases fuel <;> rfl

/-- **Layered macros terminate.** If the matchers and handlers always return or fail, and each text
line is only replaced by text lines of lower ranks, then the execution of every queue of lines ends
in every session: with some fuel, and with more, it comes to one result and one session, and it is
not cut off. -/
theorem executeQueue_ends (answering : Answering host actions) {rank : String → Nat}
    (layered : Layered host actions rank) (queue : List Line) (started : Bool)
    (session : Session Memory) :
    ∃ (fuel : Nat) (result : Except Failure Unit) (last : Session Memory),
      result ≠ .error .outOfFuel ∧
      ∀ more, (executeQueue host actions (fuel + more) queue started).run session =
        (result, last) := by
  obtain ⟨bound, low⟩ := exists_heightOf_lt rank queue
  obtain ⟨descent, descended⟩ := exists_descent_of_layered layered bound queue low started session
  have execution (more : Nat) := executeQueue_run_of_descent descended more []
  simp only [List.append_nil, executeQueue_nil] at execution
  cases left : descent.ending with
  | exhausted finishStarted =>
      refine ⟨descent.cost, .ok (), descent.session, ?_, ?_⟩
      · intro cutOff
        cases cutOff
      · intro more
        rw [Nat.add_comm, execution, left]
        rfl
  | final result =>
      refine ⟨descent.cost, result, descent.session, ?_, ?_⟩
      · intro cutOff
        rw [cutOff] at left
        exact descended.ne_outOfFuel answering left
      · intro more
        rw [Nat.add_comm, execution, left]

/-- Actions by which `outer` expands to `inner` twice with control lines in between, and `inner` to
`leaf`. FINISH ends no more than its line, and DONE is answered with `outer`. -/
def layers : List Action :=
  [.ofName "outer" (.lines [.text "inner", .sentinel .done, .sentinel .finish, .text "inner"])
      false,
    .ofName "inner" (.lines [.text "leaf", .sentinel .finish]) false,
    .ofName "leaf" (.call ⟨0, "leaf"⟩) false,
    .ofSentinel .finish (.line (.sentinel .done)),
    .ofSentinel .done (.line (.text "outer"))]

/-- The layers of their lines. -/
def layerOf (content : String) : Nat :=
  if content = "outer" then 2 else if content = "inner" then 1 else 0

theorem answering_layers : Answering Host.ofNames layers where
  matcher := by
    intro action member line world cutOff
    simp only [layers, List.mem_cons, List.not_mem_nil, or_false] at member
    rcases member with rfl | rfl | rfl | rfl | rfl
    · rw [matched_ofName] at cutOff
      cases cutOff
    · rw [matched_ofName] at cutOff
      cases cutOff
    · rw [matched_ofName] at cutOff
      cases cutOff
    · cases cutOff
    · cases cutOff
  handler := by
    intro action member arguments session cutOff
    simp only [layers, List.mem_cons, List.not_mem_nil, or_false] at member
    rcases member with rfl | rfl | rfl | rfl | rfl <;> cases cutOff

/-- An action for another line passes a line. -/
theorem trial_ofName_of_ne {content name : String} (other : content ≠ name) (handler : Handler)
    (deref : Bool) (session : Session Unit) :
    trial Host.ofNames (.text content) (.ofName name handler deref) session = .passed session := by
  have unmatched : Line.text content ≠ .text name := fun same => other (Line.text.inj same)
  have accepted : (Action.ofName name handler deref).accepts (Line.text content).toValue = true :=
    rfl
  unfold trial
  rw [if_pos accepted, matched_ofName, if_neg unmatched]
  rfl

theorem layered_layers : Layered Host.ofNames layers layerOf := by
  intro content session lines rewritten other member
  rw [executeLine_run] at rewritten
  by_cases outer : content = "outer"
  · subst outer
    obtain rfl : [.text "inner", .sentinel .done, .sentinel .finish, .text "inner"] = lines :=
      LineOutcome.rewrite.inj (Except.ok.inj rewritten)
    simp only [List.mem_cons, List.not_mem_nil, or_false, Line.text.injEq, reduceCtorEq,
      false_or, or_self] at member
    subst member
    decide
  · by_cases inner : content = "inner"
    · subst inner
      obtain rfl : [.text "leaf", .sentinel .finish] = lines :=
        LineOutcome.rewrite.inj (Except.ok.inj rewritten)
      simp only [List.mem_cons, List.not_mem_nil, or_false, Line.text.injEq, reduceCtorEq] at member
      subst member
      decide
    · by_cases leaf : content = "leaf"
      · subst leaf
        cases rewritten
      · rw [execution_result] at rewritten
        simp only [layers, offering, trial_ofName_of_ne outer, trial_ofName_of_ne inner,
          trial_ofName_of_ne leaf] at rewritten
        cases rewritten

/-- The queue of `outer` and FINISH ends, although FINISH leaves the lines behind it. -/
theorem executeQueue_ends_layers :
    Answering Host.ofNames layers ∧ Layered Host.ofNames layers layerOf ∧
      (course Host.ofNames layers 20 [.text "outer", finishLine] false
        (Session.ofActions layers)).lines =
          [.text "outer", .text "inner", .text "leaf", finishLine, .sentinel .done, finishLine,
            .text "inner", .text "leaf", finishLine, finishLine] ∧
      ∃ (fuel : Nat) (result : Except Failure Unit) (last : Session Unit),
        result ≠ .error .outOfFuel ∧
        ∀ more, (executeQueue Host.ofNames layers (fuel + more) [.text "outer", finishLine]
          false).run (Session.ofActions layers) = (result, last) :=
  ⟨answering_layers, layered_layers, by decide +kernel,
    executeQueue_ends answering_layers layered_layers _ _ _⟩

end LineScript.Run
