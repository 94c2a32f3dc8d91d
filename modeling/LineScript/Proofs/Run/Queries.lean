import LineScript.Run.Script

/-!
# What queries depend on

Matching a line, resolving registrations and approving a script depend on a host only in so far as
it calls functions to match lines and to make registrations, waits for results and draws from
streams. Hosts that agree in this approve the same scripts, however they call handlers and deal
with the clock and the console (`LineScript.Run.approve_congr`).
-/

namespace LineScript

variable {Memory : Type}

/-- Whether two hosts agree in all that queries use. -/
structure Host.SameQueries (host other : Host Memory) : Prop where
  callMatcher : host.callMatcher = other.callMatcher
  callGenerator : host.callGenerator = other.callGenerator
  await : host.await = other.await
  next : host.next = other.next

variable {host other : Host Memory}

namespace Matcher

theorem settle_congr (same : host.SameQueries other) (reply : Reply Memory) :
    reply.settle host = reply.settle other := by
  cases reply with
  | now result => rfl
  | later pending resume =>
      unfold Reply.settle
      simp only [same.await]

mutual

theorem ask_congr (same : host.SameQueries other) (line : Value) (matcher : Matcher) :
    ask host line matcher = ask other line matcher := by
  cases matcher with
  | pattern source => rfl
  | sentinel mark => rfl
  | call function =>
      unfold ask
      rw [same.callMatcher]
  | firstOf matchers =>
      unfold ask
      exact askFirst_congr same line matchers

theorem askFirst_congr (same : host.SameQueries other) (line : Value) (matchers : List Matcher) :
    askFirst host line matchers = askFirst other line matchers := by
  cases matchers with
  | nil => rfl
  | cons matcher others =>
      unfold askFirst
      rw [ask_congr same line matcher, askFirst_congr same line others,
        settleFirst_congr same line others]

theorem settleFirst_congr (same : host.SameQueries other) (line : Value)
    (matchers : List Matcher) :
    settleFirst host line matchers = settleFirst other line matchers := by
  cases matchers with
  | nil => rfl
  | cons matcher others =>
      unfold settleFirst
      simp only [ask_congr same line matcher, settle_congr same, settleFirst_congr same line others]

end

theorem arguments_congr (same : host.SameQueries other) (matcher : Matcher) (line : Value) :
    matcher.arguments host line = matcher.arguments other line := by
  unfold arguments
  simp only [ask_congr same, settle_congr same]

end Matcher

namespace Registration

theorem drain_congr (same : host.SameQueries other) (id fuel : Nat) :
    drain host id fuel = drain other id fuel := by
  induction fuel with
  | zero => rfl
  | succ fuel ih =>
      unfold drain
      rw [same.next, ih]

/-- Hosts that resolve registrations alike, with some fuel. -/
structure ResolveAlike (host other : Host Memory) (fuel : Nat) : Prop where
  one : ∀ registration, resolve host fuel registration = resolve other fuel registration
  all : ∀ registrations, resolveAll host fuel registrations = resolveAll other fuel registrations
  stream : ∀ id, resolveStream host fuel id = resolveStream other fuel id

theorem resolve_congr (same : host.SameQueries other) (fuel : Nat) :
    ResolveAlike host other fuel := by
  induction fuel with
  | zero => exact ⟨fun _ => rfl, fun _ => rfl, fun _ => rfl⟩
  | succ fuel ih =>
      refine ⟨?_, ?_, ?_⟩
      · intro registration
        unfold resolve
        simp only [same.await, same.callGenerator, drain_congr same, ih.one, ih.all, ih.stream]
      · intro registrations
        cases registrations with
        | nil => rfl
        | cons registration others =>
            unfold resolveAll
            rw [ih.one, ih.all]
      · intro id
        unfold resolveStream
        simp only [same.next, ih.one, ih.stream]

end Registration

theorem Engine.prepare_congr (same : host.SameQueries other) (fuel : Nat) :
    Engine.prepare host fuel = Engine.prepare other fuel := by
  induction fuel with
  | zero => rfl
  | succ fuel ih =>
      unfold Engine.prepare
      simp only [(Registration.resolve_congr same fuel).one, ih]

namespace Run

theorem scriptLines_congr (same : host.SameQueries other) (fuel : Nat) (source : Value) :
    scriptLines host fuel source = scriptLines other fuel source := by
  unfold scriptLines
  simp only [Registration.drain_congr same]

theorem isRecognized_congr (same : host.SameQueries other) (line : Line) (actions : List Action) :
    isRecognized host line actions = isRecognized other line actions := by
  induction actions with
  | nil => rfl
  | cons action others ih =>
      unfold isRecognized Action.matched
      rw [Matcher.arguments_congr same, ih]

theorem diagnostics_congr (same : host.SameQueries other) (actions : List Action)
    (lines : List (Nat × Line)) :
    diagnostics host actions lines = diagnostics other actions lines := by
  induction lines with
  | nil => rfl
  | cons line others ih =>
      obtain ⟨number, content | mark⟩ := line
      · unfold diagnostics
        rw [isRecognized_congr same, ih]
      · exact ih

/-- Hosts that agree in all that queries use approve the same scripts, in the same way. -/
theorem approve_congr (same : host.SameQueries other) (fuel : Nat) (source : Value) :
    approve host fuel source = approve other fuel source := by
  unfold approve preflight
  simp only [scriptLines_congr same, Engine.prepare_congr same, diagnostics_congr same]

end Run

end LineScript
