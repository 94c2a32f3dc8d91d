import LineScript.Proofs.Session.Relations
import LineScript.Run.Script

/-!
# What runs are made of

Matching a line, resolving registrations and inspecting the lines of a script are sequences of
queries of the host, and executing lines calls its handlers in between. So all of these have every
property that sequences inherit and that what the host does has.
-/

namespace LineScript

variable {Memory : Type} {host : Host Memory}
  {Good : (α : Type) → Query Memory α → Prop}

/-- Whether the queries by which a host matches lines and makes registrations have a property. -/
structure Host.QueriesAre (host : Host Memory) (Good : (α : Type) → Query Memory α → Prop) :
    Prop where
  callMatcher : ∀ function line, Good Answer (host.callMatcher function line)
  callGenerator : ∀ function, Good Value (host.callGenerator function)
  await : ∀ id, Good Value (host.await id)
  next : ∀ id, Good (Option Value) (host.next id)

namespace Matcher

/-- Whether a reply that is waited for goes on with queries that have a property. -/
def Reply.Resumes (Good : (α : Type) → Query Memory α → Prop) : Reply Memory → Prop
  | .now _ => True
  | .later _ resume => ∀ value, Good Value (resume value)

/-- Whether a query for a reply has a property, and so has all that its replies go on with. -/
structure Asks (Good : (α : Type) → Query Memory α → Prop) (query : Query Memory (Reply Memory)) :
    Prop where
  good : Good (Reply Memory) query
  resumes : ∀ start reply last, query.run start = (.ok reply, last) → reply.Resumes Good

namespace Asks

theorem pure (sequential : Sequential Good) {reply : Reply Memory} (resumes : reply.Resumes Good) :
    Asks Good (Pure.pure reply) := by
  refine ⟨sequential.pure reply, ?_⟩
  intro start other last done
  cases done
  exact resumes

theorem bind {α : Type} {first : Query Memory α} {next : α → Query Memory (Reply Memory)}
    (sequential : Sequential Good) (good : Good α first)
    (rest : ∀ start value last, first.run start = (.ok value, last) → Asks Good (next value)) :
    Asks Good (first >>= next) := by
  refine ⟨sequential.bind good fun start value last done => (rest start value last done).good, ?_⟩
  intro start reply last done
  obtain ⟨value, place, before, after⟩ := exists_of_run_bind done
  exact (rest start value place before).resumes place reply last after

end Asks

theorem settle_is (sequential : Sequential Good) (queries : host.QueriesAre Good)
    {reply : Reply Memory} (resumes : reply.Resumes Good) : Good Value (reply.settle host) := by
  cases reply with
  | now result => exact sequential.pure result
  | later pending resume => exact sequential.andThen (queries.await pending) resumes

mutual

theorem ask_is (sequential : Sequential Good) (queries : host.QueriesAre Good) (line : Value)
    (matcher : Matcher) : Asks Good (ask host line matcher) := by
  cases matcher with
  | pattern source => exact .pure sequential trivial
  | sentinel mark => exact .pure sequential trivial
  | call function =>
      unfold ask
      refine .bind sequential (queries.callMatcher function line) ?_
      rintro - (result | id) - -
      · exact .pure sequential trivial
      · exact .pure sequential fun value => sequential.pure value
  | firstOf matchers =>
      unfold ask
      exact askFirst_is sequential queries line matchers

theorem askFirst_is (sequential : Sequential Good) (queries : host.QueriesAre Good) (line : Value)
    (matchers : List Matcher) : Asks Good (askFirst host line matchers) := by
  cases matchers with
  | nil => exact .pure sequential trivial
  | cons matcher others =>
      unfold askFirst
      have own := ask_is sequential queries line matcher
      refine .bind sequential own.good ?_
      intro start reply last done
      have resumes := own.resumes start reply last done
      cases reply with
      | now result =>
          simp only []
          split
          · exact .pure sequential trivial
          · exact askFirst_is sequential queries line others
      | later pending resume =>
          refine .pure sequential fun awaited => ?_
          refine sequential.andThen (resumes awaited) fun result => ?_
          split
          · exact sequential.pure _
          · exact settleFirst_is sequential queries line others

theorem settleFirst_is (sequential : Sequential Good) (queries : host.QueriesAre Good)
    (line : Value) (matchers : List Matcher) : Good Value (settleFirst host line matchers) := by
  cases matchers with
  | nil => exact sequential.pure _
  | cons matcher others =>
      unfold settleFirst
      have own := ask_is sequential queries line matcher
      refine sequential.bind own.good ?_
      intro start reply last done
      refine sequential.andThen
        (settle_is sequential queries (own.resumes start reply last done)) fun result => ?_
      split
      · exact sequential.pure _
      · exact settleFirst_is sequential queries line others

end

theorem arguments_is (sequential : Sequential Good) (queries : host.QueriesAre Good)
    (matcher : Matcher) (line : Value) :
    Good (Option (List Value)) (matcher.arguments host line) := by
  have own := ask_is sequential queries line matcher
  refine sequential.bind own.good ?_
  intro start reply last done
  exact sequential.map (settle_is sequential queries (own.resumes start reply last done)) _

end Matcher

theorem Query.ofExcept_is {α : Type} (sequential : Sequential Good) (result : Except Fault α) :
    Good α (Query.ofExcept result) := by
  cases result with
  | ok value => exact sequential.pure value
  | error fault => exact sequential.throw _

namespace Registration

theorem drain_is (sequential : Sequential Good) (queries : host.QueriesAre Good) (id fuel : Nat) :
    Good (List Value) (drain host id fuel) := by
  induction fuel with
  | zero => exact sequential.throw _
  | succ fuel ih =>
      refine sequential.andThen (queries.next id) ?_
      rintro (_ | item)
      · exact sequential.pure _
      · exact sequential.map ih _

/-- Whether resolving registrations with some fuel has a property. -/
structure ResolvingIs (Good : (α : Type) → Query Memory α → Prop) (host : Host Memory)
    (fuel : Nat) : Prop where
  one : ∀ registration, Good (List Action) (resolve host fuel registration)
  all : ∀ registrations, Good (List Action) (resolveAll host fuel registrations)
  stream : ∀ id, Good (List Action) (resolveStream host fuel id)

theorem resolve_is (sequential : Sequential Good) (queries : host.QueriesAre Good)
    (note : ∀ notice, Good Unit (Query.note notice)) (fuel : Nat) :
    ResolvingIs Good host fuel := by
  induction fuel with
  | zero =>
      exact ⟨fun _ => sequential.throw _, fun _ => sequential.throw _, fun _ => sequential.throw _⟩
  | succ fuel ih =>
      refine ⟨?_, ?_, ?_⟩
      · intro registration
        unfold resolve
        split
        · exact sequential.pure _
        · exact sequential.andThen (queries.await _) ih.one
        · exact ih.all _
        · exact ih.all _
        · exact ih.stream _
        · exact sequential.andThen (drain_is sequential queries _ fuel) ih.all
        · split
          · exact sequential.map (Query.ofExcept_is sequential _) _
          · exact sequential.mapM (fun _ => Query.ofExcept_is sequential _) _
          · exact sequential.andThen (note _) fun _ =>
              sequential.andThen (queries.callGenerator _) ih.one
          · exact sequential.throw _
      · rintro (_ | ⟨registration, others⟩)
        · exact sequential.pure _
        · exact sequential.andThen (ih.one registration) fun _ => sequential.map (ih.all others) _
      · intro id
        refine sequential.andThen (queries.next id) ?_
        rintro (_ | registration)
        · exact sequential.pure _
        · exact sequential.andThen (ih.one registration) fun _ => sequential.map (ih.stream id) _

end Registration

namespace Run

theorem scriptLines_is (sequential : Sequential Good) (queries : host.QueriesAre Good)
    (fuel : Nat) (source : Value) :
    Good (List (Nat × Line)) (scriptLines host fuel source) := by
  unfold scriptLines
  split
  case h_5 => exact sequential.map (Registration.drain_is sequential queries _ fuel) _
  case h_7 => exact sequential.throw _
  all_goals exact sequential.pure _

theorem isRecognized_is (sequential : Sequential Good) (queries : host.QueriesAre Good)
    (line : Line) (actions : List Action) : Good Bool (isRecognized host line actions) := by
  induction actions with
  | nil => exact sequential.pure _
  | cons action others ih =>
      unfold isRecognized
      split
      · refine sequential.andThen (Matcher.arguments_is sequential queries _ _) ?_
        rintro (_ | taken)
        · exact ih
        · exact sequential.pure _
      · exact ih

theorem diagnostics_is (sequential : Sequential Good) (queries : host.QueriesAre Good)
    (note : ∀ notice, Good Unit (Query.note notice)) (actions : List Action)
    (lines : List (Nat × Line)) : Good (List String) (diagnostics host actions lines) := by
  induction lines with
  | nil => exact sequential.pure _
  | cons line others ih =>
      obtain ⟨number, content | mark⟩ := line
      · unfold diagnostics
        refine sequential.andThen (isRecognized_is sequential queries _ _) ?_
        rintro (_ | _)
        · exact sequential.andThen (note _) fun _ => sequential.map ih _
        · exact ih
      · exact ih

theorem preflight_is (sequential : Sequential Good) (queries : host.QueriesAre Good)
    (note : ∀ notice, Good Unit (Query.note notice)) (actions : List Action)
    (lines : List (Nat × Line)) : Good Unit (preflight host actions lines) := by
  refine sequential.andThen (diagnostics_is sequential queries note actions lines) fun found => ?_
  split
  · exact sequential.throw _
  · exact sequential.pure _

theorem approve_is (sequential : Sequential Good) (queries : host.QueriesAre Good)
    (note : ∀ notice, Good Unit (Query.note notice)) {fuel : Nat}
    (prepare : Good (List Action) (Engine.prepare host fuel)) (source : Value) :
    Good (List Action × List Line) (approve host fuel source) :=
  sequential.andThen (scriptLines_is sequential queries fuel source) fun _ =>
    sequential.andThen prepare fun _ =>
      sequential.map (preflight_is sequential queries note _ _) _

section Approving

variable {fuel : Nat} {source : Value} {lines : List (Nat × Line)}
  {start listed ready last : World Memory} {failure : Failure}

/-- A script that cannot be read is refused. -/
theorem approve_run_of_unread
    (unread : (scriptLines host fuel source).run start = (.error failure, listed)) :
    (approve host fuel source).run start = (.error failure, listed) :=
  run_bind_of_error unread

/-- A script is refused if the engine cannot be prepared. -/
theorem approve_run_of_unprepared
    (read : (scriptLines host fuel source).run start = (.ok lines, listed))
    (unprepared : (Engine.prepare host fuel).run listed = (.error failure, ready)) :
    (approve host fuel source).run start = (.error failure, ready) := by
  unfold approve
  rw [run_bind_of_ok read, run_bind_of_error unprepared]

/-- With the engine prepared, a script is approved if its lines before FINISH are. -/
theorem approve_run_of_preflight {actions : List Action} {result : Except Failure Unit}
    (read : (scriptLines host fuel source).run start = (.ok lines, listed))
    (prepared : (Engine.prepare host fuel).run listed = (.ok actions, ready))
    (checked : (preflight host actions (Script.beforeFinish lines)).run ready = (result, last)) :
    (approve host fuel source).run start =
      (result.map fun _ => (actions, (Script.beforeFinish lines).map Prod.snd), last) := by
  unfold approve
  rw [run_bind_of_ok read, run_bind_of_ok prepared]
  cases result with
  | error failure => exact run_bind_of_error checked
  | ok _ => exact run_bind_of_ok checked

end Approving

end Run

/-- Whether all that a host does has a property, the one `Good` of queries or the one `Fine` of
procedures, and so have the means of the engine: what is noted, the state, and the use of queries
and results in procedures. -/
structure Host.ProceduresAre (host : Host Memory) (Good : (α : Type) → Query Memory α → Prop)
    (Fine : (α : Type) → Procedure Memory α → Prop) : Prop extends host.QueriesAre Good where
  sleep : ∀ seconds, Good Unit (host.sleep seconds)
  print : ∀ line, Good Unit (host.print line)
  readKey : Good (Option Char) host.readKey
  callHandler : ∀ function arguments, Fine Answer (host.callHandler function arguments)
  note : ∀ notice, Good Unit (Query.note notice)
  lift : ∀ {α : Type} {query : Query Memory α}, Good α query → Fine α (Query.lift query)
  attempt : ∀ {α : Type} {procedure : Procedure Memory α}, Fine α procedure →
    Fine (Except Failure α) (Procedure.attempt procedure)
  state : Fine State Procedure.state
  modifyState : ∀ change, Fine Unit (Procedure.modifyState change)

variable {Fine : (α : Type) → Procedure Memory α → Prop}

theorem Bundled.perform_is (sequential : Sequential Good) (sequential' : Sequential Fine)
    (procedures : host.ProceduresAre Good Fine) (function : Bundled) (arguments : List Value) :
    Fine Value (Bundled.perform host function arguments) := by
  unfold perform
  split
  · refine sequential'.map (sequential'.andThen procedures.state fun state => ?_) _
    split
    · exact procedures.modifyState _
    · exact sequential'.throw _
  · refine procedures.lift (sequential.andThen (Query.ofExcept_is sequential _) fun amount => ?_)
    exact sequential.andThen (procedures.note _) fun _ =>
      sequential.map (procedures.sleep amount) _
  · refine procedures.lift (sequential.andThen (procedures.print _) fun _ =>
      sequential.andThen procedures.readKey ?_)
    rintro (_ | key)
    · exact sequential.pure _
    · simp only []
      split
      · exact sequential.map (procedures.note _) _
      · exact sequential.pure _
  · exact sequential'.throw _

namespace Action

theorem handle_is (sequential : Sequential Good) (sequential' : Sequential Fine)
    (procedures : host.ProceduresAre Good Fine) (handler : Handler) (arguments : List Value) :
    Fine Value (handle host handler arguments) := by
  unfold handle
  split
  · exact sequential'.pure _
  · exact sequential'.pure _
  · exact Bundled.perform_is sequential sequential' procedures _ _
  · refine sequential'.andThen (procedures.callHandler _ _) ?_
    rintro (result | id)
    · exact sequential'.pure _
    · exact procedures.lift (procedures.await id)

theorem perform_is (sequential : Sequential Good) (sequential' : Sequential Fine)
    (procedures : host.ProceduresAre Good Fine) (action : Action) (line : Line)
    (taken : List Value) : Fine Value (action.perform host line taken) := by
  have handled := handle_is sequential sequential' procedures action.handler
  unfold perform
  by_cases dereferenced : action.deref.truthy
  · simp only [dereferenced, ↓reduceIte]
    refine sequential'.andThen procedures.state fun state => ?_
    split
    · exact handled _
    · exact sequential'.throw _
  · simp only [dereferenced]
    exact handled _

end Action

namespace Run

theorem offer_is (sequential : Sequential Good) (sequential' : Sequential Fine)
    (procedures : host.ProceduresAre Good Fine) (line : Line) (actions : List Action)
    (progress : LineProgress) : Fine LineProgress (offer host line actions progress) := by
  induction actions generalizing progress with
  | nil => exact sequential'.pure _
  | cons action others ih =>
      unfold offer
      split
      · exact ih progress
      · refine sequential'.andThen (procedures.lift
          (Matcher.arguments_is sequential procedures.toQueriesAre _ _)) ?_
        rintro (_ | taken)
        · exact ih progress
        · refine sequential'.andThen
            (Action.perform_is sequential sequential' procedures action line taken) fun result => ?_
          simp only []
          split
          · split
            · exact sequential'.andThen (procedures.lift (procedures.note _)) fun _ => ih _
            · exact ih _
          · split
            · exact sequential'.pure _
            · exact ih _

theorem executeLine_is (sequential : Sequential Good) (sequential' : Sequential Fine)
    (procedures : host.ProceduresAre Good Fine) (actions : List Action) (line : Line) :
    Fine LineOutcome (executeLine host actions line) := by
  refine sequential'.andThen (procedures.lift (procedures.note _)) fun _ =>
    sequential'.andThen (offer_is sequential sequential' procedures line actions _) fun _ => ?_
  split
  · exact sequential'.pure _
  · exact sequential'.throw _

theorem attemptLine_is (sequential : Sequential Good) (sequential' : Sequential Fine)
    (procedures : host.ProceduresAre Good Fine) (actions : List Action) (line : Line) :
    Fine (Except Failure LineOutcome) (attemptLine host actions line) := by
  have executed : Fine (Except Failure LineOutcome) (do
      let result ← Procedure.attempt (executeLine host actions line)
      Procedure.modifyState fun state => state.erase State.lineName
      return result) :=
    sequential'.andThen
      (procedures.attempt (executeLine_is sequential sequential' procedures actions line))
      fun _ => sequential'.map (procedures.modifyState _) _
  unfold attemptLine
  cases line with
  | text content => exact sequential'.andThen (procedures.modifyState _) fun _ => executed
  | sentinel mark => exact executed

theorem cleanUp_is (sequential : Sequential Good) (sequential' : Sequential Fine)
    (procedures : host.ProceduresAre Good Fine) (actions : List Action) :
    Fine Unit (cleanUp host actions) := by
  refine sequential'.andThen (procedures.attempt
    (executeLine_is sequential sequential' procedures actions finishLine)) fun result => ?_
  split
  · exact procedures.lift (procedures.note _)
  · exact sequential'.throw _
  · exact sequential'.pure _

theorem executeQueue_is (sequential : Sequential Good) (sequential' : Sequential Fine)
    (procedures : host.ProceduresAre Good Fine) (actions : List Action) (fuel : Nat)
    (queue : List Line) (finishStarted : Bool) :
    Fine Unit (executeQueue host actions fuel queue finishStarted) := by
  induction fuel generalizing queue finishStarted with
  | zero =>
      cases queue with
      | nil => exact sequential'.pure _
      | cons line queue => exact sequential'.throw _
  | succ fuel ih =>
      cases queue with
      | nil => exact sequential'.pure _
      | cons line queue =>
          unfold executeQueue
          refine sequential'.andThen
            (attemptLine_is sequential sequential' procedures actions line) fun result => ?_
          split
          · exact ih _ _
          · split
            · exact sequential'.andThen (cleanUp_is sequential sequential' procedures actions)
                fun _ => sequential'.throw _
            · exact sequential'.throw _
          · exact sequential'.throw _

/-- What a run does with an approved script. -/
def carryOut (host : Host Memory) (fuel : Nat) (actions : List Action) (lines : List Line) :
    Procedure Memory Unit := do
  Procedure.modifyState fun state => state.put State.engineName .engine
  let result ← Procedure.attempt do
    Procedure.note (.executingAgainst actions.length)
    executeQueue host actions fuel (lines ++ [finishLine]) false
  Procedure.modifyState State.withoutTransient
  Procedure.ofResult result

/-- A run approves its script and then carries it out. -/
theorem script_eq (host : Host Memory) (fuel : Nat) (source : Value) :
    script host fuel source =
      (liftM (approve host fuel source) : Procedure Memory (List Action × List Line)) >>=
        fun approved => carryOut host fuel approved.1 approved.2 := rfl

theorem carryOut_is (sequential : Sequential Good) (sequential' : Sequential Fine)
    (procedures : host.ProceduresAre Good Fine) (fuel : Nat) (actions : List Action)
    (lines : List Line) : Fine Unit (carryOut host fuel actions lines) := by
  refine sequential'.andThen (procedures.modifyState _) fun _ =>
    sequential'.andThen (procedures.attempt ?_) fun result =>
      sequential'.andThen (procedures.modifyState _) fun _ => ?_
  · exact sequential'.andThen (procedures.lift (procedures.note _)) fun _ =>
      executeQueue_is sequential sequential' procedures actions fuel _ _
  · cases result with
    | ok value => exact sequential'.pure value
    | error failure => exact sequential'.throw failure

/-- A run has a property if preparing the engine has it. -/
theorem script_is (sequential : Sequential Good) (sequential' : Sequential Fine)
    (procedures : host.ProceduresAre Good Fine) {fuel : Nat}
    (prepare : Good (List Action) (Engine.prepare host fuel)) (source : Value) :
    Fine Unit (script host fuel source) := by
  have approved := approve_is sequential procedures.toQueriesAre procedures.note prepare source
  rw [script_eq]
  exact sequential'.andThen (procedures.lift approved) fun _ =>
    carryOut_is sequential sequential' procedures fuel _ _

end Run

end LineScript
