import LineScript.Proofs.Run.Course

/-!
# Depth-first execution

The queue of a run holds the lines that are still to be executed, and lines that replace a line go
to its front. So a row of lines at the front is executed depth first: each line is followed by its
replacement and by all that this expands to, and only then by the next line of the row. A descent
executes a row of lines so by recursion, without a queue, and comes to one result
(`LineScript.Run.Descends.unique`). An execution of a queue that ends is a descent through its
front, and then the execution of the rest (`LineScript.Run.executeQueue_append`); it ends where
these do (`LineScript.Run.executeQueue_run_of_descent`).
-/

namespace LineScript.Run

variable {Memory : Type}

/-- What an execution of a queue comes to, without regard to the lines that wait meanwhile. -/
structure Account (Memory : Type) where
  executions : List (Execution Memory)
  result : Except Failure Unit
  session : Session Memory

/-- The account of a course. -/
def Course.account (course : Course Memory) : Account Memory :=
  ⟨course.executions, course.result, course.session⟩

/-- An account with executions before it. -/
def Account.after (account : Account Memory) (executions : List (Execution Memory)) :
    Account Memory :=
  { account with executions := executions ++ account.executions }

namespace Execution

/-- Whether lines behind an execution are still executed: it neither fails nor stops the
script. -/
def GoesOn (executed : Execution Memory) : Prop :=
  ∃ outcome, executed.result = .ok outcome ∧ outcome ≠ .stopScript

/-- The lines that an execution puts in the place of its line. -/
def replacement (executed : Execution Memory) : List Line :=
  match executed.result with
  | .ok (.rewrite lines) => lines
  | _ => []

end Execution

/-- The course of the FINISH line that a stop brings. -/
def finishCourse (host : Host Memory) (actions : List Action) (session : Session Memory) :
    Course Memory :=
  let turn := turnOf host actions finishLine [] session
  ⟨[turn], turn.result.map fun _ => (), turn.after.withoutLine⟩

/-- What is left to happen after an execution that lets no other line be executed. After a stop
this is FINISH, unless it has been started; after a fault it is the cleanup. -/
def conclusion (host : Host Memory) (actions : List Action) (finishStarted : Bool)
    (executed : Execution Memory) : Option (Account Memory) :=
  match executed.result with
  | .ok .stopScript =>
    if finishStarted then some ⟨[], .ok (), executed.after.withoutLine⟩
    else some (finishCourse host actions executed.after.withoutLine).account
  | .ok _ => none
  | .error failure =>
    some (failureCourse host actions finishStarted failure executed.after.withoutLine).account

/-- How a row of lines is left: executed to exhaustion, with or without FINISH started by then, or
with the result of the whole execution. -/
inductive Ending where
  | exhausted (finishStarted : Bool)
  | final (result : Except Failure Unit)

/-- What executing a row of lines comes to. -/
structure Descent (Memory : Type) where
  executions : List (Execution Memory)
  ending : Ending
  session : Session Memory

/-- A descent with executions before it. -/
def Descent.after (descent : Descent Memory) (executions : List (Execution Memory)) :
    Descent Memory :=
  { descent with executions := executions ++ descent.executions }

/-- What executing a row of lines depth first comes to: each line is executed, then its replacement
in the same way, and then the lines behind it, unless one of these ends the whole execution. -/
inductive Descends (host : Host Memory) (actions : List Action) :
    List Line → Bool → Session Memory → Descent Memory → Prop where
  | nil (started : Bool) (session : Session Memory) :
      Descends host actions [] started session ⟨[], .exhausted started, session⟩
  | last {line : Line} {others : List Line} {started : Bool} {session : Session Memory}
      {executed : Execution Memory} {account : Account Memory} :
      executed = execution host actions line (session.withLine line) →
      conclusion host actions (started || executed.isFinish) executed = some account →
      Descends host actions (line :: others) started session
        ⟨executed :: account.executions, .final account.result, account.session⟩
  | inside {line : Line} {others : List Line} {started : Bool} {session : Session Memory}
      {executed : Execution Memory} {below : Descent Memory} {result : Except Failure Unit} :
      executed = execution host actions line (session.withLine line) →
      conclusion host actions (started || executed.isFinish) executed = none →
      Descends host actions executed.replacement (started || executed.isFinish)
        executed.after.withoutLine below →
      below.ending = .final result →
      Descends host actions (line :: others) started session (below.after [executed])
  | next {line : Line} {others : List Line} {started finishStarted : Bool}
      {session : Session Memory} {executed : Execution Memory} {below behind : Descent Memory} :
      executed = execution host actions line (session.withLine line) →
      conclusion host actions (started || executed.isFinish) executed = none →
      Descends host actions executed.replacement (started || executed.isFinish)
        executed.after.withoutLine below →
      below.ending = .exhausted finishStarted →
      Descends host actions others finishStarted below.session behind →
      Descends host actions (line :: others) started session
        (behind.after (executed :: below.executions))

/-- Executing a row of lines depth first comes to one descent at most. -/
theorem Descends.unique {host : Host Memory} {actions : List Action} {lines : List Line}
    {started : Bool} {session : Session Memory} {first second : Descent Memory}
    (one : Descends host actions lines started session first)
    (other : Descends host actions lines started session second) : first = second := by
  induction one generalizing second with
  | nil started session =>
      cases other
      rfl
  | last done concluded =>
      subst done
      cases other with
      | last done' concluded' =>
          subst done'
          rw [concluded] at concluded'
          cases concluded'
          rfl
      | inside done' concluded' =>
          subst done'
          rw [concluded] at concluded'
          cases concluded'
      | next done' concluded' =>
          subst done'
          rw [concluded] at concluded'
          cases concluded'
  | inside done concluded entered left ih =>
      subst done
      cases other with
      | last done' concluded' =>
          subst done'
          rw [concluded] at concluded'
          cases concluded'
      | inside done' concluded' entered' left' =>
          subst done'
          rw [ih entered']
      | next done' concluded' entered' left' resumed' =>
          subst done'
          rw [← ih entered', left] at left'
          cases left'
  | next done concluded entered left resumed ih last =>
      subst done
      cases other with
      | last done' concluded' =>
          subst done'
          rw [concluded] at concluded'
          cases concluded'
      | inside done' concluded' entered' left' =>
          subst done'
          rw [← ih entered', left] at left'
          cases left'
      | next done' concluded' entered' left' resumed' =>
          subst done'
          obtain rfl := ih entered'
          rw [left] at left'
          cases left'
          rw [last resumed']

@[simp] theorem account_behind (course : Course Memory) (turn : Turn Memory) :
    (course.behind turn).account = course.account.after [turn.toExecution] := rfl

@[simp] theorem result_account (course : Course Memory) :
    course.account.result = course.result := rfl

@[simp] theorem result_after (account : Account Memory) (executions : List (Execution Memory)) :
    (account.after executions).result = account.result := rfl

@[simp] theorem account_after_after (account : Account Memory)
    (first second : List (Execution Memory)) :
    (account.after second).after first = account.after (first ++ second) := by
  simp only [Account.after, List.append_assoc]

/-- After a line that lets others be executed, a queue goes on with its replacement. -/
theorem account_of_conclusion_none {host : Host Memory} {actions : List Action} {line : Line}
    {started : Bool} {session : Session Memory} {executed : Execution Memory}
    (done : executed = execution host actions line (session.withLine line))
    (concluded : conclusion host actions (started || executed.isFinish) executed = none)
    (fuel : Nat) (queue : List Line) :
    (course host actions (fuel + 1) (line :: queue) started session).account =
      (course host actions fuel (executed.replacement ++ queue) (started || executed.isFinish)
        executed.after.withoutLine).account.after [executed] := by
  have taken : (turnOf host actions line queue session).toExecution = executed := done.symm
  have finish : executed.isFinish = (line == finishLine) := by
    rw [done]
    rfl
  rw [course]
  simp only [taken, ← finish]
  unfold conclusion at concluded
  unfold Execution.replacement
  cases left : executed.result with
  | error failure =>
      rw [left] at concluded
      cases concluded
  | ok outcome =>
      rw [left] at concluded
      cases outcome with
      | stopScript =>
          by_cases finishing : started || executed.isFinish
          · simp only [finishing, ↓reduceIte] at concluded
            cases concluded
          · simp only [finishing] at concluded
            cases concluded
      | proceed => simp only [queueAfter, account_behind, taken, List.nil_append]
      | stopLine => simp only [queueAfter, account_behind, taken, List.nil_append]
      | rewrite lines => simp only [queueAfter, account_behind, taken]

/-- A queue that holds nothing but FINISH comes to the one turn of FINISH. -/
theorem course_finishLine (host : Host Memory) (actions : List Action) (fuel : Nat)
    (session : Session Memory) :
    course host actions (fuel + 1) [finishLine] false session =
      finishCourse host actions session := by
  have started : (false || finishLine == finishLine) = true := rfl
  rw [course]
  unfold finishCourse
  simp only [started, toExecution_turnOf]
  rcases execution_finishLine_result host actions (session.withLine finishLine) with
    left | left | ⟨failure, left⟩
  · simp only [left, queueAfter, course_nil]
    rfl
  · simp only [left, queueAfter, ↓reduceIte, course_nil]
    rfl
  · simp only [left]
    cases failure <;> rfl

/-- After a line that lets no other be executed, a queue comes to what is left to happen then. -/
theorem account_of_conclusion_some {host : Host Memory} {actions : List Action} {line : Line}
    {started : Bool} {session : Session Memory} {executed : Execution Memory}
    {account : Account Memory}
    (done : executed = execution host actions line (session.withLine line))
    (concluded : conclusion host actions (started || executed.isFinish) executed = some account)
    (fuel : Nat) (queue : List Line) :
    (course host actions (fuel + 2) (line :: queue) started session).account =
      account.after [executed] := by
  have taken : (turnOf host actions line queue session).toExecution = executed := done.symm
  have finish : executed.isFinish = (line == finishLine) := by
    rw [done]
    rfl
  rw [course]
  simp only [taken, ← finish]
  unfold conclusion at concluded
  cases left : executed.result with
  | error failure =>
      rw [left] at concluded
      cases concluded
      simp only [account_behind, taken]
  | ok outcome =>
      rw [left] at concluded
      cases outcome with
      | stopScript =>
          by_cases finishing : started || executed.isFinish
          · simp only [finishing, ↓reduceIte] at concluded
            cases concluded
            simp only [queueAfter, finishing, ↓reduceIte, course_nil, account_behind, taken]
            rfl
          · simp only [finishing] at concluded
            cases concluded
            simp only [queueAfter, finishing, account_behind, taken]
            exact congrArg (fun last : Course Memory => last.account.after [executed])
              (course_finishLine host actions fuel executed.after.withoutLine)
      | proceed => cases concluded
      | stopLine => cases concluded
      | rewrite lines => cases concluded

/-- The account of a queue whose front has been descended. -/
def Descent.accountBefore (host : Host Memory) (actions : List Action) (fuel : Nat)
    (behind : List Line) (descent : Descent Memory) : Account Memory :=
  match descent.ending with
  | .exhausted started =>
    (course host actions fuel behind started descent.session).account.after descent.executions
  | .final result => ⟨descent.executions, result, descent.session⟩

theorem accountBefore_of_exhausted {descent : Descent Memory} {started : Bool}
    (left : descent.ending = .exhausted started) (host : Host Memory) (actions : List Action)
    (fuel : Nat) (behind : List Line) :
    descent.accountBefore host actions fuel behind =
      (course host actions fuel behind started descent.session).account.after
        descent.executions := by
  unfold Descent.accountBefore
  rw [left]

theorem accountBefore_of_final {descent : Descent Memory} {result : Except Failure Unit}
    (left : descent.ending = .final result) (host : Host Memory) (actions : List Action)
    (fuel : Nat) (behind : List Line) :
    descent.accountBefore host actions fuel behind =
      ⟨descent.executions, result, descent.session⟩ := by
  unfold Descent.accountBefore
  rw [left]

theorem accountBefore_after (host : Host Memory) (actions : List Action) (fuel : Nat)
    (behind : List Line) (descent : Descent Memory) (executions : List (Execution Memory)) :
    (descent.after executions).accountBefore host actions fuel behind =
      (descent.accountBefore host actions fuel behind).after executions := by
  obtain ⟨below, ending, session⟩ := descent
  cases ending with
  | exhausted started =>
      simp only [Descent.accountBefore, Descent.after, account_after_after]
  | final result => rfl

/-- Fuel that is enough for a descent. -/
def Descent.cost (descent : Descent Memory) : Nat :=
  match descent.ending with
  | .exhausted _ => descent.executions.length
  | .final _ => descent.executions.length + 1

theorem cost_after (descent : Descent Memory) (executions : List (Execution Memory)) :
    (descent.after executions).cost = executions.length + descent.cost := by
  obtain ⟨below, ending, session⟩ := descent
  cases ending with
  | exhausted started => exact List.length_append
  | final result =>
      simp only [Descent.cost, Descent.after, List.length_append]
      omega

/-- With enough fuel, a queue whose front can be descended comes to this descent and then to what
the rest of the queue comes to. -/
theorem account_append {host : Host Memory} {actions : List Action} {front : List Line}
    {started : Bool} {session : Session Memory} {descent : Descent Memory}
    (descended : Descends host actions front started session descent)
    (fuel : Nat) (behind : List Line) :
    (course host actions (fuel + descent.cost) (front ++ behind) started session).account =
      descent.accountBefore host actions fuel behind := by
  induction descended generalizing fuel behind with
  | nil started session => rfl
  | @last line others started session executed account done concluded =>
      exact account_of_conclusion_some done concluded (fuel + account.executions.length) _
  | @inside line others started session executed below result done concluded entered left ih =>
      have spent : fuel + (below.after [executed]).cost = fuel + below.cost + 1 := by
        rw [cost_after, List.length_singleton]
        omega
      rw [spent, List.cons_append, account_of_conclusion_none done concluded, ih,
        accountBefore_after, accountBefore_of_final left, accountBefore_of_final left]
  | @next line others started finishStarted session executed below rest done concluded entered
      left resumed ih last =>
      have spent : fuel + (rest.after (executed :: below.executions)).cost =
          fuel + rest.cost + below.cost + 1 := by
        have exact_cost : below.cost = below.executions.length := by
          unfold Descent.cost
          rw [left]
        rw [cost_after, List.length_cons, exact_cost]
        omega
      have inside : below.accountBefore host actions (fuel + rest.cost) (others ++ behind) =
          (rest.accountBefore host actions fuel behind).after below.executions := by
        rw [← last, accountBefore_of_exhausted left]
      rw [spent, List.cons_append, account_of_conclusion_none done concluded, ih, inside,
        accountBefore_after, account_after_after]
      rfl

/-- If a queue comes to an end, then its front can be descended. -/
theorem exists_descent {host : Host Memory} {actions : List Action} {fuel : Nat}
    {front behind : List Line} {started : Bool} {session : Session Memory}
    (ended : (course host actions fuel (front ++ behind) started session).result ≠
      .error .outOfFuel) :
    ∃ descent, Descends host actions front started session descent := by
  -- The fuel bounds the replacement with the rest of the front behind it, and then this rest.
  induction fuel generalizing front behind started session with
  | zero =>
      cases front with
      | nil => exact ⟨_, .nil started session⟩
      | cons line others => exact absurd rfl ended
  | succ fuel ih =>
      cases front with
      | nil => exact ⟨_, .nil started session⟩
      | cons line others =>
          cases concluded : conclusion host actions
              (started || (execution host actions line (session.withLine line)).isFinish)
              (execution host actions line (session.withLine line)) with
          | some account => exact ⟨_, .last rfl concluded⟩
          | none =>
              have step := account_of_conclusion_none rfl concluded fuel (others ++ behind)
              have continued := congrArg Account.result step
              rw [result_account, result_after, result_account] at continued
              rw [List.cons_append, continued] at ended
              obtain ⟨below, entered⟩ := ih ended
              cases left : below.ending with
              | final result => exact ⟨_, .inside rfl concluded entered left⟩
              | exhausted finishStarted =>
                  have rest := account_append entered fuel (others ++ behind)
                  unfold Course.account at rest
                  rw [course_add_fuel ended below.cost] at rest
                  have resumed := congrArg Account.result rest
                  rw [accountBefore_of_exhausted left, result_after, result_account] at resumed
                  change (course host actions fuel _ _ _).result = _ at resumed
                  rw [resumed] at ended
                  obtain ⟨rest, gone⟩ := ih ended
                  exact ⟨_, .next rfl concluded entered left gone⟩

/-- An execution lets other lines be executed exactly when it neither fails nor stops the
script. -/
theorem conclusion_eq_none_iff (host : Host Memory) (actions : List Action) (started : Bool)
    (executed : Execution Memory) :
    conclusion host actions started executed = none ↔ executed.GoesOn := by
  unfold conclusion Execution.GoesOn
  cases left : executed.result with
  | error failure =>
      constructor
      · intro concluded
        cases concluded
      · rintro ⟨outcome, succeeded, _⟩
        cases succeeded
  | ok outcome =>
      constructor
      · intro concluded
        refine ⟨outcome, rfl, ?_⟩
        rintro rfl
        cases started <;> cases concluded
      · rintro ⟨outcome, ⟨⟩, goesOn⟩
        cases outcome with
        | stopScript => exact absurd rfl goesOn
        | proceed => rfl
        | stopLine => rfl
        | rewrite lines => rfl

namespace Descent

/-- Every execution has let others be executed, and FINISH has been started by the end if it was
before or if it was one of the lines. -/
def RunsThrough (descent : Descent Memory) (started finishStarted : Bool) : Prop :=
  (∀ executed ∈ descent.executions, executed.GoesOn) ∧
    finishStarted = (started || descent.executions.any Execution.isFinish)

/-- One execution lets no other line be executed, and nothing has followed it but what is left to
happen then. -/
def BreaksOff (host : Host Memory) (actions : List Action) (descent : Descent Memory)
    (started : Bool) (result : Except Failure Unit) : Prop :=
  ∃ before last account,
    descent.executions = before ++ last :: account.executions ∧
    (∀ executed ∈ before, executed.GoesOn) ∧
    conclusion host actions (started || (before ++ [last]).any Execution.isFinish) last =
      some account ∧
    account.result = result ∧ account.session = descent.session

/-- What the executions of a descent say of its end. -/
def Shaped (host : Host Memory) (actions : List Action) (descent : Descent Memory)
    (started : Bool) : Prop :=
  match descent.ending with
  | .exhausted finishStarted => descent.RunsThrough started finishStarted
  | .final result => descent.BreaksOff host actions started result

theorem RunsThrough.after {descent : Descent Memory} {started finishStarted : Bool}
    {executions : List (Execution Memory)}
    (behind : descent.RunsThrough (started || executions.any Execution.isFinish) finishStarted)
    (before : ∀ executed ∈ executions, executed.GoesOn) :
    (descent.after executions).RunsThrough started finishStarted := by
  obtain ⟨goOn, finish⟩ := behind
  constructor
  · intro executed member
    rcases List.mem_append.mp member with member | member
    · exact before executed member
    · exact goOn executed member
  · rw [finish, Descent.after, List.any_append, Bool.or_assoc]

theorem BreaksOff.after {host : Host Memory} {actions : List Action} {descent : Descent Memory}
    {started : Bool} {result : Except Failure Unit} {executions : List (Execution Memory)}
    (behind : descent.BreaksOff host actions (started || executions.any Execution.isFinish) result)
    (goOn : ∀ executed ∈ executions, executed.GoesOn) :
    (descent.after executions).BreaksOff host actions started result := by
  obtain ⟨before, last, account, rows, inside, concluded, same, kept⟩ := behind
  refine ⟨executions ++ before, last, account, ?_, ?_, ?_, same, kept⟩
  · rw [Descent.after, rows, List.append_assoc]
  · intro executed member
    rcases List.mem_append.mp member with member | member
    · exact goOn executed member
    · exact inside executed member
  · rw [List.append_assoc, List.any_append, ← Bool.or_assoc]
    exact concluded

theorem Shaped.after {host : Host Memory} {actions : List Action} {descent : Descent Memory}
    {started : Bool} {executions : List (Execution Memory)}
    (behind : descent.Shaped host actions (started || executions.any Execution.isFinish))
    (goOn : ∀ executed ∈ executions, executed.GoesOn) :
    (descent.after executions).Shaped host actions started := by
  obtain ⟨below, ending, session⟩ := descent
  cases ending with
  | exhausted finishStarted => exact RunsThrough.after behind goOn
  | final result => exact BreaksOff.after behind goOn

end Descent

/-- The executions of a descent say how it ends. -/
theorem Descends.shaped {host : Host Memory} {actions : List Action} {front : List Line}
    {started : Bool} {session : Session Memory} {descent : Descent Memory}
    (descended : Descends host actions front started session descent) :
    descent.Shaped host actions started := by
  induction descended with
  | nil started session =>
      refine ⟨?_, ?_⟩
      · intro executed member
        cases member
      · exact (Bool.or_false started).symm
  | @last line others started session executed account done concluded =>
      refine ⟨[], executed, account, rfl, ?_, ?_, rfl, rfl⟩
      · intro other member
        cases member
      · rw [List.nil_append, List.any_cons, List.any_nil, Bool.or_false]
        exact concluded
  | inside done concluded entered left ih =>
      refine Descent.Shaped.after ?_ ?_
      · rw [List.any_cons, List.any_nil, Bool.or_false]
        exact ih
      · intro other member
        rw [List.mem_singleton.mp member]
        exact (conclusion_eq_none_iff host actions _ _).mp concluded
  | next done concluded entered left resumed ih last =>
      unfold Descent.Shaped at ih
      rw [left] at ih
      obtain ⟨inside, finish⟩ := ih
      refine Descent.Shaped.after ?_ ?_
      · rw [List.any_cons, ← Bool.or_assoc, ← finish]
        exact last
      · intro other member
        rcases List.mem_cons.mp member with rfl | member
        · exact (conclusion_eq_none_iff host actions _ other).mp concluded
        · exact inside other member

/-- Where a descent through the front of a queue comes to an end, so does an execution of the queue
with enough fuel, as far as that of the rest does. -/
theorem executeQueue_run_of_descent {host : Host Memory} {actions : List Action}
    {front : List Line} {started : Bool} {session : Session Memory} {descent : Descent Memory}
    (descended : Descends host actions front started session descent)
    (fuel : Nat) (behind : List Line) :
    (executeQueue host actions (fuel + descent.cost) (front ++ behind) started).run session =
      match descent.ending with
      | .exhausted finishStarted =>
        (executeQueue host actions fuel behind finishStarted).run descent.session
      | .final result => (result, descent.session) := by
  have account := account_append descended fuel behind
  rw [executeQueue_run]
  cases left : descent.ending with
  | exhausted finishStarted =>
      rw [accountBefore_of_exhausted left] at account
      injection account with executions result session
      rw [result, session]
      exact (executeQueue_run host actions fuel behind finishStarted descent.session).symm
  | final result =>
      rw [accountBefore_of_final left] at account
      injection account with executions same session
      rw [same, session]

/-- The queue of a run executes its lines depth first. An execution of a queue that ends begins
with the descent through the front of the queue. When this exhausts the front, the execution goes
on as that of the rest of the queue, from the session that the descent leaves and with FINISH
started if it has been by then. When a line of the descent stops the script or fails, the
execution is over with what then is left to happen. -/
theorem executeQueue_append {host : Host Memory} {actions : List Action} {fuel : Nat}
    {front behind : List Line} {started : Bool} {session : Session Memory}
    (ended : ((executeQueue host actions fuel (front ++ behind) started).run session).1 ≠
      .error .outOfFuel) :
    ∃ descent, Descends host actions front started session descent ∧
      match descent.ending with
      | .exhausted finishStarted =>
          descent.RunsThrough started finishStarted ∧
            (executeQueue host actions fuel (front ++ behind) started).run session =
              (executeQueue host actions fuel behind finishStarted).run descent.session ∧
            (course host actions fuel (front ++ behind) started session).executions =
              descent.executions ++
                (course host actions fuel behind finishStarted descent.session).executions
      | .final result =>
          descent.BreaksOff host actions started result ∧
            (executeQueue host actions fuel (front ++ behind) started).run session =
              (result, descent.session) ∧
            (course host actions fuel (front ++ behind) started session).executions =
              descent.executions := by
  rw [executeQueue_run] at ended
  obtain ⟨descent, descended⟩ := exists_descent ended
  have shaped := descended.shaped
  have account := account_append descended fuel behind
  rw [course_add_fuel ended] at account
  refine ⟨descent, descended, ?_⟩
  unfold Descent.Shaped at shaped
  cases left : descent.ending with
  | exhausted finishStarted =>
      rw [left] at shaped
      rw [accountBefore_of_exhausted left] at account
      injection account with executions result session
      refine ⟨shaped, ?_, executions⟩
      rw [executeQueue_run, executeQueue_run, result, session]
      rfl
  | final result =>
      rw [left] at shaped
      rw [accountBefore_of_final left] at account
      injection account with executions result session
      refine ⟨shaped, ?_, executions⟩
      rw [executeQueue_run, result, session]

/-- Actions by which `outer` expands to `inner` and `leaf`, and `inner` to `leaf` twice. -/
def expanding : List Action :=
  [.ofName "outer" (.lines [.text "inner", .text "leaf"]) false,
    .ofName "inner" (.lines [.text "leaf", .text "leaf"]) false,
    .ofName "leaf" (.call ⟨0, "leaf"⟩) false]

/-- The three leaves of `outer` come before the line behind it. -/
theorem executeQueue_append_expanding :
    (course Host.ofNames expanding 9 ([.text "outer"] ++ [.text "leaf", finishLine]) false
      (Session.ofActions expanding)).lines =
        [.text "outer", .text "inner", .text "leaf", .text "leaf", .text "leaf", .text "leaf",
          finishLine] ∧
      ∃ descent, Descends Host.ofNames expanding [.text "outer"] false
        (Session.ofActions expanding) descent := by
  have succeeds : ((executeQueue Host.ofNames expanding 9
      ([.text "outer"] ++ [.text "leaf", finishLine]) false).run
        (Session.ofActions expanding)).1.isOk = true := by
    decide +kernel
  obtain ⟨descent, descended, _⟩ := executeQueue_append (ne_outOfFuel_of_isOk succeeds)
  refine ⟨?_, descent, descended⟩
  decide +kernel

end LineScript.Run
