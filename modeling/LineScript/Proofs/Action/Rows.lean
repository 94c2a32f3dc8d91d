import LineScript.Action.Matcher
import LineScript.Proofs.Session.Evaluation

/-!
# Rows of matchers

A row of matchers may hold rows again, and it changes from one loop to another where the first
answer is pending. For what it comes to neither makes a difference: to ask a row about a line and
to wait for its answer is to call the *leaves* of the row one after the other, from left to right,
and to wait for each, until one of them matches (`LineScript.Matcher.answer_row`). Behind this are
two laws of going on to another matcher: the order in which one goes on is all that counts, and a
matcher without a match may be left out in front.
-/

namespace LineScript.Matcher

variable {Memory : Type}

mutual

/-- The leaves of a value that a matcher is made from, from left to right. -/
def leaves : Value → List Value
  | .list items => leavesOf items
  | .tuple items => leavesOf items
  | value => [value]

/-- The leaves of some values, from left to right. -/
def leavesOf : List Value → List Value
  | [] => []
  | value :: rest => leaves value ++ leavesOf rest

end

/-- Whether a value is a template, a pattern, a control value or a function. -/
inductive IsLeaf : Value → Prop where
  | template (content : String) : IsLeaf (.text content)
  | pattern (source : Pattern) : IsLeaf (.pattern source)
  | sentinel (mark : Sentinel) : IsLeaf (.sentinel mark)
  | callable (function : Callable) : IsLeaf (.callable function)

/-- The result of a leaf for a line. If the answer of a function is pending it is waited for. -/
def callLeaf (host : Host Memory) (line : Value) : Value → Query Memory Value
  | .text template => return patternReply (Template.pattern template) line
  | .pattern source => return patternReply source line
  | .sentinel mark =>
    return match line with
      | .sentinel other => if other = mark then .list [] else .null
      | _ => .null
  | .callable function => do
    match ← host.callMatcher function line with
    | .pending id => host.await id
    | .ready result => return result
  | value => Query.fail (.script (.invalidMatcher value.quoted))

/-- Go on to another result unless there is a match, which is then a list. -/
def orTry (first next : Query Memory Value) : Query Memory Value := do
  match arguments? (← first) with
  | some arguments => return .list arguments
  | none => next

/-- Call leaves one after the other until one of them matches. -/
def firstMatch (host : Host Memory) (line : Value) : List Value → Query Memory Value
  | [] => return .null
  | leaf :: others => orTry (callLeaf host line leaf) (firstMatch host line others)

/-- The answer of a matcher about a line, waited for if it is pending. -/
def answer (host : Host Memory) (matcher : Matcher) (line : Value) : Query Memory Value := do
  let reply ← matcher.ask host line
  reply.settle host

/-- Leaves that are called one after the other without a match, each in the world that the one
before it leaves. -/
inductive Declined (host : Host Memory) (line : Value) :
    List Value → World Memory → World Memory → Prop where
  | nil (world : World Memory) : Declined host line [] world world
  | cons {leaf result : Value} {others : List Value} {world next last : World Memory} :
      (callLeaf host line leaf).run world = (.ok result, next) → arguments? result = none →
      Declined host line others next last → Declined host line (leaf :: others) world last

section Going

variable (host : Host Memory) (line : Value)

theorem orTry_null (next : Query Memory Value) : orTry (pure .null) next = next :=
  pure_bind _ _

/-- A match is one for whatever else might be tried, so only the order of what is tried counts. -/
theorem orTry_assoc (first second third : Query Memory Value) :
    orTry (orTry first second) third = orTry first (orTry second third) := by
  unfold orTry
  rw [bind_assoc]
  refine bind_congr fun result => ?_
  cases arguments? result with
  | some arguments => exact pure_bind _ _
  | none => rfl

theorem firstMatch_append (front back : List Value) :
    firstMatch host line (front ++ back) =
      orTry (firstMatch host line front) (firstMatch host line back) := by
  induction front with
  | nil => exact (orTry_null _).symm
  | cons leaf front ih =>
      rw [List.cons_append, firstMatch, ih, firstMatch, orTry_assoc]

theorem settleFirst_cons (matcher : Matcher) (others : List Matcher) :
    settleFirst host line (matcher :: others) =
      orTry (matcher.answer host line) (settleFirst host line others) := by
  unfold orTry answer
  rw [settleFirst]
  exact (bind_assoc _ _ _).symm

/-- The loop that goes on while answers are there, with the one that waits for each answer behind
the first pending one, comes to what the second loop alone comes to. -/
theorem answer_firstOf (matchers : List Matcher) :
    (Matcher.firstOf matchers).answer host line = settleFirst host line matchers := by
  unfold answer
  rw [ask]
  induction matchers with
  | nil => rfl
  | cons matcher others ih =>
      rw [askFirst, settleFirst, bind_assoc]
      refine bind_congr fun reply => ?_
      cases reply with
      | later id resume =>
          simp only [pure_bind, Reply.settle, bind_assoc]
      | now result =>
          simp only [Reply.settle, pure_bind]
          cases arguments? result with
          | some arguments => exact pure_bind _ _
          | none => exact ih

end Going

/-- Whether a matcher answers as the leaves of a value do, with whatever is tried behind them. -/
def AnswersAs (matcher : Matcher) (value : Value) : Prop :=
  ∀ (Memory : Type) (host : Host Memory) (line : Value) (next : Query Memory Value),
    orTry (matcher.answer host line) next = orTry (firstMatch host line (leaves value)) next

/-- A matcher that is asked by a call of a single leaf answers as this leaf. -/
theorem answersAs_of_leaf {matcher : Matcher} {value : Value} (alone : leaves value = [value])
    (same : ∀ (Memory : Type) (host : Host Memory) (line : Value),
      matcher.answer host line = callLeaf host line value) : matcher.AnswersAs value := by
  intro Memory host line next
  rw [alone, firstMatch, firstMatch, orTry_assoc, orTry_null, same]

theorem answer_call (host : Host Memory) (line : Value) (function : Callable) :
    (Matcher.call function).answer host line = callLeaf host line (.callable function) := by
  unfold answer callLeaf
  rw [ask, bind_assoc]
  refine bind_congr fun answered => ?_
  cases answered with
  | pending id => exact (pure_bind _ _).trans (bind_pure _)
  | ready result => exact pure_bind _ _

/-- The leaves of a row are those of its items. -/
theorem leaves_of_row {spec : Value} {items : List Value} (row : spec.items? = some items) :
    leaves spec = leavesOf items := by
  cases spec with
  | list others => cases row; rfl
  | tuple others => cases row; rfl
  | _ => cases row

/-- If the items of a row make matchers that are settled as some leaves, the row makes a matcher
that answers so. -/
theorem exists_answer_of_settled {spec : Value} {items : List Value}
    (row : spec.items? = some items)
    (settled : ∃ matchers, ofValues items = .ok matchers ∧
      ∀ (Memory : Type) (host : Host Memory) (line : Value),
        settleFirst host line matchers = firstMatch host line (leavesOf items)) :
    ∃ matcher, ofValue spec = .ok matcher ∧
      ∀ (Memory : Type) (host : Host Memory) (line : Value),
        matcher.answer host line = firstMatch host line (leaves spec) := by
  obtain ⟨matchers, made, same⟩ := settled
  refine ⟨.firstOf matchers, ?_, ?_⟩
  · cases spec with
    | list others =>
        cases row
        rw [ofValue, made]
        rfl
    | tuple others =>
        cases row
        rw [ofValue, made]
        rfl
    | _ => cases row
  · intro Memory host line
    rw [answer_firstOf, same, leaves_of_row row]

mutual

/-- A value whose leaves are proper makes a matcher that answers as these leaves. -/
theorem exists_answersAs (value : Value) (proper : ∀ leaf ∈ leaves value, IsLeaf leaf) :
    ∃ matcher, ofValue value = .ok matcher ∧ matcher.AnswersAs value := by
  have row {items : List Value} (own : value.items? = some items)
      (settled : ∃ matchers, ofValues items = .ok matchers ∧
        ∀ (Memory : Type) (host : Host Memory) (line : Value),
          settleFirst host line matchers = firstMatch host line (leavesOf items)) :
      ∃ matcher, ofValue value = .ok matcher ∧ matcher.AnswersAs value := by
    obtain ⟨matcher, made, same⟩ := exists_answer_of_settled own settled
    refine ⟨matcher, made, fun Memory host line next => ?_⟩
    rw [same]
  cases value with
  | list items => exact row rfl (exists_settlesAs items proper)
  | tuple items => exact row rfl (exists_settlesAs items proper)
  | text template => exact ⟨_, rfl, answersAs_of_leaf rfl fun _ _ _ => rfl⟩
  | pattern source => exact ⟨_, rfl, answersAs_of_leaf rfl fun _ _ _ => rfl⟩
  | sentinel mark => exact ⟨_, rfl, answersAs_of_leaf rfl fun _ _ _ => rfl⟩
  | callable function =>
      exact ⟨_, rfl, answersAs_of_leaf rfl fun _ host line => answer_call host line function⟩
  | _ => cases proper _ (List.mem_singleton_self _)

/-- Values whose leaves are proper make matchers that are settled as these leaves. -/
theorem exists_settlesAs (values : List Value) (proper : ∀ leaf ∈ leavesOf values, IsLeaf leaf) :
    ∃ matchers, ofValues values = .ok matchers ∧
      ∀ (Memory : Type) (host : Host Memory) (line : Value),
        settleFirst host line matchers = firstMatch host line (leavesOf values) := by
  cases values with
  | nil => exact ⟨[], rfl, fun _ _ _ => rfl⟩
  | cons value rest =>
      rw [leavesOf] at proper
      obtain ⟨own, others⟩ := List.forall_mem_append.mp proper
      obtain ⟨matcher, made, answers⟩ := exists_answersAs value own
      obtain ⟨matchers, makes, settles⟩ := exists_settlesAs rest others
      refine ⟨matcher :: matchers, ?_, ?_⟩
      · rw [ofValues, made, makes]
        rfl
      · intro Memory host line
        rw [settleFirst_cons, answers, settles, leavesOf, firstMatch_append]

end

/-- What calling leaves comes to: none of them matches, or one of them matches or fails behind some
that do not match, and those behind it are not called. -/
theorem firstMatch_run (host : Host Memory) (line : Value) (row : List Value)
    (world : World Memory) :
    (∃ last, Declined host line row world last ∧
      (firstMatch host line row).run world = (.ok .null, last)) ∨
    ∃ front leaf back next, row = front ++ leaf :: back ∧ Declined host line front world next ∧
      ((∃ result arguments last, (callLeaf host line leaf).run next = (.ok result, last) ∧
          arguments? result = some arguments ∧
          (firstMatch host line row).run world = (.ok (.list arguments), last)) ∨
        ∃ failure last, (callLeaf host line leaf).run next = (.error failure, last) ∧
          (firstMatch host line row).run world = (.error failure, last)) := by
  induction row generalizing world with
  | nil => exact Or.inl ⟨world, .nil world, rfl⟩
  | cons leaf others ih =>
      rw [firstMatch, orTry]
      rcases called : (callLeaf host line leaf).run world with ⟨failure | result, next⟩
      · rw [run_bind_of_error called]
        exact Or.inr ⟨[], leaf, others, world, rfl, .nil world, Or.inr ⟨failure, next, called, rfl⟩⟩
      · rw [run_bind_of_ok called]
        cases matched : arguments? result with
        | some arguments =>
            exact Or.inr ⟨[], leaf, others, world, rfl, .nil world,
              Or.inl ⟨result, arguments, next, called, matched, rfl⟩⟩
        | none =>
            rcases ih next with
              ⟨last, declined, run⟩ | ⟨front, other, back, place, rfl, declined, ended⟩
            · exact Or.inl ⟨last, .cons called matched declined, run⟩
            · exact Or.inr
                ⟨leaf :: front, other, back, place, rfl, .cons called matched declined, ended⟩

/-- **Rows of matchers.** A row whose leaves are templates, patterns, control values and functions
is a matcher. For every host and every line its answer, waited for if it is pending, is what the
plain loop over the leaves comes to: the leaves are called from left to right, and each answer is
waited for if it is pending, until one of them matches. So either all leaves are called and none
matches, or exactly those are up to the first that matches, with its arguments as a list for the
answer, or up to the first that fails, with its failure. The arguments that are taken from the line
are those of the same loop. -/
theorem answer_row {spec : Value} (row : spec.items?.isSome = true)
    (proper : ∀ leaf ∈ leaves spec, IsLeaf leaf) :
    ∃ matcher, ofValue spec = .ok matcher ∧
      ∀ (Memory : Type) (host : Host Memory) (line : Value),
        matcher.answer host line = firstMatch host line (leaves spec) ∧
        matcher.arguments host line =
          (do return arguments? (← firstMatch host line (leaves spec))) ∧
        ∀ world,
          (∃ last, Declined host line (leaves spec) world last ∧
            (matcher.answer host line).run world = (.ok .null, last)) ∨
          ∃ front leaf back next, leaves spec = front ++ leaf :: back ∧
            Declined host line front world next ∧
            ((∃ result arguments last,
                (callLeaf host line leaf).run next = (.ok result, last) ∧
                arguments? result = some arguments ∧
                (matcher.answer host line).run world = (.ok (.list arguments), last)) ∨
              ∃ failure last, (callLeaf host line leaf).run next = (.error failure, last) ∧
                (matcher.answer host line).run world = (.error failure, last)) := by
  obtain ⟨items, own⟩ := Option.isSome_iff_exists.mp row
  obtain ⟨matcher, made, same⟩ :=
    exists_answer_of_settled own (exists_settlesAs items (leaves_of_row own ▸ proper))
  refine ⟨matcher, made, fun Memory host line => ⟨same Memory host line, ?_, fun world => ?_⟩⟩
  · rw [← same]
    unfold answer
    rw [bind_assoc]
    rfl
  · rw [same]
    exact firstMatch_run host line (leaves spec) world

/-- Remember a name, in front of those remembered before. -/
def remember (name : String) : Query (List String) Unit :=
  modifyThe (World (List String)) fun world => { world with memory := name :: world.memory }

/-- A host that remembers what it is asked for, the latest first. The answers of the function `slow`
are pending and come to nothing; all other functions match every line. -/
def remembering : Host (List String) where
  callMatcher function line := do
    remember function.name
    return if function.name = "slow" then .pending 0 else .ready (.tuple [line])
  callHandler _ _ := return .ready .null
  callGenerator _ := return .null
  await _ := do
    remember "await"
    return .null
  next _ := return none
  sleep _ := return ()
  print _ := return ()
  readKey := return none

/-- A row with rows in it, whose second leaf is pending and whose fourth leaf matches. -/
def nested : Value :=
  .list [.text "b", .tuple [.callable ⟨0, "slow"⟩, .list []],
    .list [.sentinel .finish, .tuple [.callable ⟨1, "quick"⟩]], .callable ⟨0, "slow"⟩]

/-- The leaf behind the one that matches is not called. -/
theorem answer_row_nested :
    nested.items?.isSome = true ∧ (∀ leaf ∈ leaves nested, IsLeaf leaf) ∧
      ∃ matcher, ofValue nested = .ok matcher ∧
        ∀ (engine : Engine) (notices : List Notice),
          (matcher.answer remembering (.text "a")).run ⟨engine, notices, []⟩ =
            (.ok (.list [.text "a"]), ⟨engine, notices, ["quick", "await", "slow"]⟩) := by
  have proper : ∀ leaf ∈ leaves nested, IsLeaf leaf := by
    intro leaf member
    simp only [nested, leaves, leavesOf, List.cons_append, List.nil_append, List.append_nil,
      List.mem_cons, List.not_mem_nil, or_false] at member
    rcases member with rfl | rfl | rfl | rfl | rfl
    · exact .template _
    · exact .callable _
    · exact .sentinel _
    · exact .callable _
    · exact .callable _
  obtain ⟨matcher, made, answers⟩ := answer_row rfl proper
  refine ⟨rfl, proper, matcher, made, fun engine notices => ?_⟩
  rw [(answers (List String) remembering (.text "a")).1]
  rfl

end LineScript.Matcher
