import LineScript.Proofs.CommandLine.Sequence
import LineScript.Proofs.CommandLine.Splitting
import LineScript.Proofs.Session.Settings

/-!
# Seeding

The entries for the state on a command line are also settings of the engine. All but `common` are
kept among its options, and the first script starts on them. An entry named `env` is the exception:
the loading of options takes it for the environment, which it is not, and so the command fails
(`LineScript.CommandLine.command_seeds`).
-/

namespace LineScript

namespace Options

variable {process : Environment} {settings : Entries Value}

/-- A setting that is taken for the environment but is no mapping. -/
theorem loadSettings_of_some {value : Value} (present : settings.get? "env" = some value)
    (plain : value.IsPlain) :
    loadSettings process settings = .error (.noAttribute value.qualifiedKind "get") := by
  unfold loadSettings
  rw [present]
  rcases plain with rfl | ⟨content, rfl⟩ <;> rfl

end Options

namespace CommandLine

open Library (Memory)

/-- The entries on a command line are plain. -/
theorem given_plain (invocation : Invocation) {name : String} {value : Value}
    (present : invocation.given.get? name = some value) : value.IsPlain := by
  have given : invocation.given = Entries.ofPairs
      ((pieces invocation.arguments).filterMap ArgumentPiece.entry?) := stateEntries_eq _
  rw [given] at present
  refine Entries.good_of_get? (Entries.forall_ofPairs ?_) present
  intro pair listed
  exact (proper_of_listed listed).2

theorem given_nodup (invocation : Invocation) : invocation.given.names.Nodup :=
  Entries.nodup_ofPairs _

/-- **Seeding.** A command line whose arguments are read and whose `common`, if it has an entry of
that name, is valid makes an engine that keeps all other entries among its options, with their
values. The engine keeps these options while it is loaded, and the first script that is run starts
on a state that holds just the entries. Only an entry named `env` prevents this: the command then
fails before it loads anything. -/
theorem command_seeds {invocation : Invocation} {request : Request}
    (reading : invocation.reading = .ok (.request request))
    (valid : ∀ value, invocation.given.get? "common" = some value →
      ∃ common, Options.truthOf value = .ok common)
    (host : Host Memory) (fuel : Nat) (start : Session Memory) :
    (invocation.given.get? "env" = none →
      ∃ options, invocation.options = .ok options ∧
        options.extras = invocation.given.erase "common" ∧
        (∃ loaded ready,
          Loading invocation.files request (equipped start.world options) loaded ready) ∧
        ∀ loaded ready,
          Loading invocation.files request (equipped start.world options) loaded ready →
          ready.engine.options = options ∧
          match loaded with
          | .scripts contents => contents ≠ [] ∧
            EndsInTurn host fuel request invocation.given contents ⟨invocation.given, ready⟩
              ((command host fuel invocation).run start)
          | _ => ((command host fuel invocation).run start).2 = start.inWorld ready) ∧
    ∀ value, invocation.given.get? "env" = some value →
      (command host fuel invocation).run start =
        (.error (.fault (.noAttribute value.qualifiedKind "get")), start) := by
  refine ⟨?_, ?_⟩
  · intro absent
    obtain ⟨fallback, settings⟩ :=
      @Options.loadSettings_of_none invocation.environment _ (given_nodup invocation) absent
    obtain ⟨common, checked⟩ : ∃ common, Options.truthOf
        ((invocation.given.get? "common").getD (.bool fallback)) = .ok common := by
      cases own : invocation.given.get? "common" with
      | none => exact ⟨fallback, rfl⟩
      | some value => exact valid value own
    rw [checked] at settings
    refine ⟨_, settings, rfl, exists_loading _ _ _, ?_⟩
    intro loaded ready loading
    obtain ⟨added, registered⟩ := loading.registers
    refine ⟨congrArg Engine.options registered, ?_⟩
    rw [loading.command_run reading settings]
    cases loaded with
    | scripts contents =>
        exact ⟨loading.contents_ne_nil, conclude_endsInTurn host fuel request _ contents _⟩
    | refused message => rfl
    | failed fault => rfl
  · intro value present
    have failed : invocation.options = .error (.noAttribute value.qualifiedKind "get") :=
      Options.loadSettings_of_some present (given_plain invocation present)
    rw [command_run_of_fault reading failed]
    rfl

/-- A command line with a text, a flag and `common` among its entries for the state. -/
def seeded : Invocation :=
  ⟨["--name", "x", "a.txt", "--flag", "--common=no"], [], twoScripts, "3.11"⟩

/-- What the engine keeps of them. -/
def seeds : Entries Value :=
  [("name", .text "x"), ("flag", .bool true)]

theorem command_seeds_seeded :
    ∃ options ready, options.extras = seeds ∧ ready.engine.options = options ∧
      EndsInTurn (Library.host 40 1) 40 { paths := ["a.txt"] }
        (seeds ++ [("common", .text "no")]) [""] ⟨seeds ++ [("common", .text "no")], ready⟩
        ((command (Library.host 40 1) 40 seeded).run nothingDone) := by
  have given : seeded.given = seeds ++ [("common", .text "no")] := rfl
  have valid : ∀ value, seeded.given.get? "common" = some value →
      ∃ common, Options.truthOf value = .ok common := by
    intro value present
    rw [given] at present
    obtain rfl : .text "no" = value := Option.some.inj present
    exact ⟨false, Options.truthOf_no⟩
  obtain ⟨options, -, extras, -, carried⟩ :=
    (command_seeds (rfl : seeded.reading = .ok (.request _)) valid (Library.host 40 1) 40
      nothingDone).1 rfl
  have loading : Loading twoScripts { paths := ["a.txt"] }
      (equipped nothingDone.world options) (.scripts [""]) _ :=
    .given (.nil _) (.cons ⟨by decide, rfl⟩ .nil) (by decide)
  obtain ⟨same, -, ended⟩ := carried _ _ loading
  exact ⟨options, _, extras, same, ended⟩

/-- A command line with an entry named `env`. -/
def seededWithEnvironment : Invocation :=
  ⟨["--env", "prod", "a.txt"], [], twoScripts, "3.11"⟩

/-- An entry named `env` reaches neither an engine nor a script. -/
theorem command_seededWithEnvironment :
    seededWithEnvironment.reading = .ok (.request { paths := ["a.txt"] }) ∧
      seededWithEnvironment.given = [("env", .text "prod")] ∧
      (command (Library.host 40 1) 40 seededWithEnvironment).run nothingDone =
        (.error (.fault (.noAttribute "str" "get")), nothingDone) := by
  have failed : seededWithEnvironment.options = .error (.noAttribute "str" "get") := rfl
  exact ⟨rfl, rfl, command_run_of_fault rfl failed⟩

end CommandLine

end LineScript
