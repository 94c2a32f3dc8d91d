import LineScript.Proofs.Bundled.Shapes
import LineScript.Proofs.Run.Alone

/-!
# Scripts of pauses

On an engine with the bundled actions every line in which the pattern of pauses is found is
recognized. A script of such lines lets the seconds of each pass, one after the other, up to the
first that cannot be carried out, and fails there (`LineScript.Run.script_pauses`).
-/

namespace LineScript.Run

open Bundled
open Bundled.Pause (IsPause IsUnit Timely Fails amountOf)

variable {Memory : Type} {options : Options}

/-- A pause in a line: the digits and the unit that the pattern takes from it, and the milliseconds
in the unit. -/
structure Spell where
  content : String
  digits : List Char
  unit : List Char
  factor : Nat

namespace Spell

/-- Whether the line is such a pause, of which the pattern takes the digits and the unit. -/
structure IsRead (spell : Spell) : Prop where
  paused : IsPause spell.content.toList spell.digits spell.unit spell.factor
  groups : Pause.pause.groups? spell.content.toList = some [some spell.digits, some spell.unit]

/-- The arguments that the handler gets. -/
def arguments (spell : Spell) : List Value :=
  [.text (String.ofList spell.digits), .text (String.ofList spell.unit)]

/-- Whether the pause can be carried out. -/
def IsTimely (spell : Spell) : Prop :=
  Timely spell.digits spell.unit spell.factor

/-- What the handler does with a pause that can be carried out: the seconds, which are as near to
those that the digits and the unit tell as any floating-point number, pass once, and the line
ends. -/
structure Sleeps (host : Host Memory) (spell : Spell) : Prop where
  finite : (amountOf spell.digits spell.factor).magnitude < Number.Binary64.infinity
  nearest : ∀ other,
    |Number.Binary64.value (amountOf spell.digits spell.factor).magnitude -
        (Text.numeral spell.digits * spell.factor : ℚ) / 1000| ≤
      |Number.Binary64.value other - (Text.numeral spell.digits * spell.factor : ℚ) / 1000|
  ran : Pause.sleep host (String.ofList spell.digits) (String.ofList spell.unit) = do
    Query.note (.sleeping (amountOf spell.digits spell.factor))
    host.sleep (amountOf spell.digits spell.factor)
    return .sentinel .done

/-- A line in which the pattern of pauses is found has a pause in it. -/
theorem exists_isRead {content : String} {groups : List (Option (List Char))}
    (found : Pause.pause.groups? content.toList = some groups) :
    ∃ spell : Spell, spell.content = content ∧ spell.IsRead := by
  obtain ⟨digits, unit, factor, paused, rfl⟩ := Pause.exists_isPause found
  exact ⟨⟨content, digits, unit, factor⟩, rfl, paused, found⟩

variable {spell : Spell}

theorem IsRead.sleeps (read : spell.IsRead) (host : Host Memory) (timely : spell.IsTimely) :
    spell.Sleeps host where
  finite := (Pause.amountOf_lt_infinity_iff _ _).mpr timely.finite
  nearest := Pause.abs_amountOf_le spell.digits spell.factor
  ran := Pause.sleep_of_timely host read.paused.named timely

/-- A pause is taken by the action for it, with its digits and its unit. -/
theorem IsRead.handledBy (read : spell.IsRead) (host : Host Memory) :
    HandledBy host (Engine.bundledActions options) spell.content Pause.action
      spell.arguments := by
  obtain ⟨kept, assignment, waiting⟩ := read.paused.groups?_others
  have before : ∀ other ∈ Engine.firstActions options ++ [Bundled.Variables.action],
      TakesAtOnce host other spell.content none :=
    List.forall_mem_append.mpr
      ⟨takesAtOnce_firstActions fun _ => Bundled.groups?_comments_eq_none kept,
        List.forall_mem_singleton.mpr (takesAtOnce_none rfl rfl assignment)⟩
  refine ⟨⟨_, [Bundled.Keystroke.action], ?_, List.forall_mem_append.mpr
    ⟨before, List.forall_mem_singleton.mpr (takesAtOnce_none rfl rfl waiting)⟩⟩, ?_⟩
  · rw [List.append_assoc]
    rfl
  · have found : Pause.pause.groups? spell.content.toList =
        some ([spell.digits, spell.unit].map some) := read.groups
    exact takesAtOnce_some rfl rfl found

theorem perform_sleep (host : Host Memory) (spell : Spell) :
    Bundled.perform host .sleep spell.arguments =
      Query.lift (Pause.sleep host (String.ofList spell.digits) (String.ofList spell.unit)) :=
  rfl

/-- The handler lets the seconds of a pause pass. -/
theorem perform_of_timely {host : Host Memory} (read : spell.IsRead) (timely : spell.IsTimely)
    {session : Session Memory} {last : World Memory}
    (slept : (host.sleep (amountOf spell.digits spell.factor)).run
      (session.world.noting (.sleeping (amountOf spell.digits spell.factor))) = (.ok (), last)) :
    (Bundled.perform host .sleep spell.arguments).run session =
      (.ok (.sentinel .done), session.inWorld last) := by
  have ran : (Pause.sleep host (String.ofList spell.digits)
      (String.ofList spell.unit)).run session.world = (.ok (.sentinel .done), last) := by
    rw [Pause.sleep_of_timely host read.paused.named timely,
      run_bind_of_ok (Query.run_note _ _), run_bind_of_ok slept]
    rfl
  rw [perform_sleep]
  exact Procedure.run_lift_of_run ran

theorem perform_of_fails (host : Host Memory) (read : spell.IsRead) {fault : Fault}
    (fails : Fails spell.digits spell.unit spell.factor fault) (session : Session Memory) :
    (Bundled.perform host .sleep spell.arguments).run session =
      (.error (.fault fault), session) := by
  have ran : (Pause.sleep host (String.ofList spell.digits)
      (String.ofList spell.unit)).run session.world = (.error (.fault fault), session.world) := by
    rw [Pause.sleep_of_fails host read.paused.named fails]
    rfl
  rw [perform_sleep]
  exact Procedure.run_lift_of_run ran

/-- The handler of pauses gets its arguments as they are taken from the line. -/
theorem argumentsFor_action (spell : Spell) (session : Session Memory) :
    argumentsFor Pause.action (.text spell.content) spell.arguments
      (session.withLine (.text spell.content)).state = .ok spell.arguments :=
  rfl

variable (options)

/-- In the turn of a pause the handler is called once, with the digits and the unit. -/
theorem IsRead.turnOf_calls (read : spell.IsRead) (host : Host Memory) (waiting : List Line)
    (session : Session Memory) :
    ((turnOf host (Engine.bundledActions options) (.text spell.content) waiting
      session).invocations.map fun call => (call.action, call.arguments)) =
        [(Pause.action, spell.arguments)] := by
  have handled : HandledBy host (Engine.bundledActions options) _ _ _ := read.handledBy host
  obtain ⟨calls, -⟩ := handled.execution_of_ok (spell.argumentsFor_action session)
  change ((execution host _ _ _).invocations.map _) = _
  rw [calls]
  rfl

/-- The turn of a pause that can be carried out ends its line. -/
theorem turnOf_of_timely {host : Host Memory}
    (returns : ∀ amount world, ((host.sleep amount).run world).1 = .ok ()) (read : spell.IsRead)
    (timely : spell.IsTimely) (waiting : List Line) (session : Session Memory) :
    (turnOf host (Engine.bundledActions options) (.text spell.content) waiting session).result =
      .ok .stopLine := by
  let line := Line.text spell.content
  let start := (session.withLine line).noting (.executing line)
  obtain ⟨last, slept⟩ : ∃ last : World Memory,
      (host.sleep (amountOf spell.digits spell.factor)).run
        (start.world.noting (.sleeping (amountOf spell.digits spell.factor))) = (.ok (), last) :=
    ⟨_, Prod.ext (returns _ _) rfl⟩
  have handled : HandledBy host (Engine.bundledActions options) _ _ _ := read.handledBy host
  obtain ⟨-, result, -⟩ := handled.execution_of_returned (spell.argumentsFor_action session)
    (perform_of_timely read timely slept)
  exact result

/-- The turn of a pause that cannot be carried out fails. -/
theorem turnOf_of_fails (host : Host Memory) (read : spell.IsRead) {fault : Fault}
    (fails : Fails spell.digits spell.unit spell.factor fault) (waiting : List Line)
    (session : Session Memory) :
    (turnOf host (Engine.bundledActions options) (.text spell.content) waiting session).result =
      .error (.fault fault) := by
  have handled : HandledBy host (Engine.bundledActions options) _ _ _ := read.handledBy host
  obtain ⟨-, result, -⟩ := handled.execution_of_raised (spell.argumentsFor_action session)
    (perform_of_fails host read fails _)
  exact result

end Spell

/-- Which of some pauses are tried, one after the other, and how that ends: with the first that
cannot be carried out. -/
inductive Tries : List Spell → List Spell → Except Failure Unit → Prop where
  | nil : Tries [] [] (.ok ())
  | timely {spell : Spell} {others tried : List Spell} {result : Except Failure Unit} :
      spell.IsTimely → Tries others tried result →
      Tries (spell :: others) (spell :: tried) result
  | fails {spell : Spell} {others : List Spell} {fault : Fault} :
      Fails spell.digits spell.unit spell.factor fault →
      Tries (spell :: others) [spell] (.error (.fault fault))

/-- The pauses end without a fault if each of them can be carried out. -/
theorem Tries.result_iff {spells tried : List Spell} {result : Except Failure Unit}
    (tries : Tries spells tried result) :
    result = .ok () ↔ ∀ spell ∈ spells, spell.IsTimely := by
  induction tries with
  | nil => exact ⟨fun _ => List.forall_mem_nil _, fun _ => rfl⟩
  | timely own _ ih =>
      rw [List.forall_mem_cons, ih]
      exact ⟨fun all => ⟨own, all⟩, And.right⟩
  | fails fails =>
      refine ⟨nofun, fun all => ?_⟩
      exact absurd fails (Timely.not_fails (all _ List.mem_cons_self))

/-- Then all of them are tried. -/
theorem Tries.tried_eq {spells tried : List Spell} (tries : Tries spells tried (.ok ())) :
    tried = spells := by
  generalize ended : Except.ok () = result at tries
  induction tries with
  | nil => rfl
  | timely _ _ ih => rw [ih ended]
  | fails _ => cases ended

/-- The course of some pauses calls the handler for each that is tried. -/
theorem course_spells {host : Host Memory}
    (returns : ∀ amount world, ((host.sleep amount).run world).1 = .ok ()) {spells : List Spell}
    (read : ∀ spell ∈ spells, spell.IsRead) {fuel : Nat} (enough : spells.length < fuel)
    (session : Session Memory) :
    ∃ tried result, Tries spells tried result ∧
      (course host (Engine.bundledActions options) fuel
        (spells.map (fun spell => .text spell.content) ++ [finishLine]) false session).result =
          result ∧
      (course host (Engine.bundledActions options) fuel
        (spells.map (fun spell => .text spell.content) ++ [finishLine]) false session).calls =
          tried.map fun spell => (Pause.action, spell.arguments) := by
  have texts : ∀ action ∈ Engine.bundledActions options, action.sentinel? = none :=
    Engine.sentinel?_of_mem_bundledActions
  induction spells generalizing fuel session with
  | nil =>
      obtain ⟨fuel, rfl⟩ := Nat.exists_eq_succ_of_ne_zero (Nat.ne_zero_of_lt enough)
      refine ⟨[], .ok (), .nil, ?_⟩
      change (course host _ (fuel + 1) [finishLine] false session).result = _ ∧
        (course host _ (fuel + 1) [finishLine] false session).calls = []
      rw [course_finishLine_of_texts texts]
      refine ⟨rfl, ?_⟩
      change ((execution host _ finishLine _).invocations.map _) ++ [] = []
      rw [(execution_finishLine host texts _).1]
      rfl
  | cons spell others ih =>
      obtain ⟨fuel, rfl⟩ := Nat.exists_eq_succ_of_ne_zero (Nat.ne_zero_of_lt enough)
      obtain ⟨own, rest⟩ := List.forall_mem_cons.mp read
      rcases Pause.timely_or_fails spell.digits spell.unit spell.factor with
        timely | ⟨fault, fails⟩
      · have ends := Spell.turnOf_of_timely options returns own timely
          (others.map (fun spell => .text spell.content) ++ [finishLine]) session
        obtain ⟨tried, result, tries, ended, called⟩ := ih rest (Nat.lt_of_succ_lt_succ enough)
          (turnOf host (Engine.bundledActions options) (.text spell.content)
            (others.map (fun spell => .text spell.content) ++ [finishLine])
            session).after.withoutLine
        have whole := course_cons_of_ok ends fuel false
        refine ⟨spell :: tried, result, .timely timely tries, ?_, ?_⟩
        · exact (congrArg Course.result whole).trans ended
        · refine (congrArg Course.calls whole).trans ?_
          rw [Course.calls_behind, own.turnOf_calls]
          exact congrArg _ called
      · have ends := Spell.turnOf_of_fails options host own fails
          (others.map (fun spell => .text spell.content) ++ [finishLine]) session
        have whole := course_cons_of_error ends fuel false
        obtain ⟨ended, called⟩ := cleanUpCourse_of_texts host texts fault
          (turnOf host (Engine.bundledActions options) (.text spell.content)
            (others.map (fun spell => .text spell.content) ++ [finishLine])
            session).after.withoutLine
        refine ⟨[spell], .error (.fault fault), .fails fails, ?_, ?_⟩
        · exact (congrArg Course.result whole).trans ended
        · refine (congrArg Course.calls whole).trans ?_
          rw [Course.calls_behind, own.turnOf_calls]
          exact congrArg _ called

/-- Lines in which the pattern of pauses is found have pauses in them. -/
theorem exists_spells {lines : List Line}
    (found : ∀ line ∈ lines, ∃ (content : String) (groups : List (Option (List Char))),
      line = .text content ∧ Pause.pause.groups? content.toList = some groups) :
    ∃ spells : List Spell, lines = spells.map (fun spell => .text spell.content) ∧
      ∀ spell ∈ spells, spell.IsRead := by
  induction lines with
  | nil => exact ⟨[], rfl, List.forall_mem_nil _⟩
  | cons line lines ih =>
      obtain ⟨⟨content, groups, rfl, own⟩, rest⟩ := List.forall_mem_cons.mp found
      obtain ⟨spell, rfl, read⟩ := Spell.exists_isRead own
      obtain ⟨spells, rfl, all⟩ := ih rest
      exact ⟨spell :: spells, rfl, List.forall_mem_cons.mpr ⟨read, all⟩⟩

/-- **Pauses.** The handler for pauses gets the digits and the unit of every line in which their
pattern is found. If the pause can be carried out, it lets the seconds pass once and ends the line;
if not, it fails. On an engine with the bundled actions a script of such lines is approved, the
handler is called for one line after the other, up to the first that cannot be carried out, and
there is no fault exactly when all of them can be. -/
theorem script_pauses {host : Host Memory}
    (returns : ∀ amount world, ((host.sleep amount).run world).1 = .ok ()) :
    (∀ (content : String) groups, Pause.pause.groups? content.toList = some groups →
      ∃ spell : Spell, spell.content = content ∧ spell.IsRead ∧
        groups = [some spell.digits, some spell.unit] ∧
        (spell.IsTimely → spell.Sleeps host) ∧
        (¬spell.IsTimely → ∃ fault, Fails spell.digits spell.unit spell.factor fault ∧
          Pause.sleep host (String.ofList spell.digits) (String.ofList spell.unit) =
            Query.fail fault)) ∧
    ∀ {session : Session Memory} {fuel : Nat} {source : Value} {items : List Value},
      session.world.engine.IsOf (Engine.bundledActions options) → 5 < fuel →
      (Script.executedOf items).length < fuel → Script.ConsistsOf source items →
      (∀ line ∈ Script.executedOf items, ∃ (content : String) (groups : List (Option (List Char))),
        line = .text content ∧ Pause.pause.groups? content.toList = some groups) →
      ∃ (spells tried : List Spell) (world : World Memory),
        Script.executedOf items = spells.map (fun spell => .text spell.content) ∧
        (∀ spell ∈ spells, spell.IsRead) ∧
        (approve host fuel source).run session.world =
          (.ok (Engine.bundledActions options, Script.executedOf items), world) ∧
        Tries spells tried ((script host fuel source).run session).1 ∧
        (runCourse host fuel (Engine.bundledActions options) (Script.executedOf items)
          (session.inWorld world)).calls =
            tried.map (fun spell => (Pause.action, spell.arguments)) ∧
        (((script host fuel source).run session).1 = .ok () ↔
          ∀ spell ∈ spells, spell.IsTimely) ∧
        ((∀ spell ∈ spells, spell.IsTimely) → tried = spells) := by
  refine ⟨fun content groups found => ?_, ?_⟩
  · obtain ⟨spell, rfl, read⟩ := Spell.exists_isRead found
    refine ⟨spell, rfl, read, Option.some.inj (found.symm.trans read.groups), ?_, fun late => ?_⟩
    · exact fun timely => read.sleeps host timely
    · obtain ⟨fault, fails⟩ := (Pause.timely_or_fails _ _ _).resolve_left late
      exact ⟨fault, fails, Pause.sleep_of_fails host read.paused.named fails⟩
  · intro session fuel source items own enough room consists found
    obtain ⟨spells, executed, read⟩ := exists_spells found
    have recognized : ∀ text, .text text ∈ Script.executedOf items → ∀ other : World Memory,
        (isRecognized host (.text text) (Engine.bundledActions options)).run other =
          (.ok true, other) := by
      intro text member
      rw [executed] at member
      obtain ⟨spell, listed, same⟩ := List.mem_map.mp member
      rw [← Line.text.inj same]
      exact ((read spell listed).handledBy host).isRecognized
    have few := Nat.lt_of_le_of_lt (Engine.length_bundledActions_le options) enough
    obtain ⟨world, approved, -⟩ := own.approve_run few consists recognized
    rw [executed, List.length_map] at room
    obtain ⟨tried, result, tries, ended, called⟩ := course_spells returns read room
      (opening (Engine.bundledActions options) (session.inWorld world))
    have run : ((script host fuel source).run session).1 = result := by
      rw [script_run_of_approved approved, executed]
      exact ended
    refine ⟨spells, tried, world, executed, read, approved, ?_, ?_, ?_, fun timely => ?_⟩
    · rw [run]
      exact tries
    · rw [executed]
      exact called
    · rw [run]
      exact tries.result_iff
    · rw [tries.result_iff.mpr timely] at tries
      exact tries.tried_eq

/-- Digits of any script and letters in any case make pauses that can be carried out. -/
theorem script_pauses_anyCase :
    ∃ spells : List Spell,
      [Line.text "sleep ٣s", Line.text "SLEEP 20 MS"] =
        spells.map (fun spell => Line.text spell.content) ∧
      ∀ spell ∈ spells, spell.IsRead ∧ spell.IsTimely := by
  have returns : ∀ amount world, ((Host.ofNames.sleep amount).run world).1 = .ok () :=
    fun _ _ => rfl
  have found : ∀ line ∈ Script.executedOf [.text "sleep ٣s", .text "SLEEP 20 MS"],
      ∃ (content : String) (groups : List (Option (List Char))),
        line = .text content ∧ Pause.pause.groups? content.toList = some groups := by
    refine List.forall_mem_cons.mpr ⟨⟨"sleep ٣s", [some ['٣'], some ['s']], rfl, ?_⟩,
      List.forall_mem_singleton.mpr ⟨"SLEEP 20 MS", [some ['2', '0'], some ['M', 'S']], rfl, ?_⟩⟩
    · decide +kernel
    · decide +kernel
  have ended : ((script Host.ofNames 6 (.list [.text "sleep ٣s", .text "SLEEP 20 MS"])).run
      Session.bundled).1 = .ok () := by
    decide +kernel
  obtain ⟨spells, -, -, executed, read, -, -, -, fine, -⟩ := (script_pauses returns).2
    Session.bundled_isOf (Nat.lt_succ_self 5) (by decide +kernel) (.list _) found
  exact ⟨spells, executed, fun spell member => ⟨read spell member, fine.mp ended spell member⟩⟩

/-- The pattern takes the long s for the letter S, but the handler does not know it. -/
theorem script_pauses_longS :
    Pause.pause.groups? "SLEEP 1ſ".toList = some [some ['1'], some ['ſ']] ∧
      ((approve Host.ofNames 6 (.text "SLEEP 1ſ")).run Session.bundled.world).1.isOk = true ∧
      ((script Host.ofNames 6 (.text "SLEEP 1ſ")).run Session.bundled).1 =
        .error (.fault (.missingKey "ſ")) := by
  refine ⟨?_, ?_, ?_⟩
  · decide +kernel
  · decide +kernel
  · decide +kernel

end LineScript.Run
