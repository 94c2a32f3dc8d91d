import LineScript.Proofs.CommandLine.Interleaving
import LineScript.Proofs.CommandLine.Loading

/-!
# Scripts in sequence

The command loads everything before it runs anything: if a library or a script cannot be loaded,
wherever it stands, no function is called and no line is run. Otherwise the actions of the engine
are those for comments, the bundled ones and those of the libraries, in this order, and the scripts
run one after the other, each on what the one before has left, up to the first one that fails
(`LineScript.CommandLine.command_sequence`).
-/

namespace LineScript

namespace Engine

variable {Memory : Type} {host : Host Memory}

/-- What registrations stand for that are resolved one after the other: the actions of each, and the
world behind the last one. -/
inductive Resolves (host : Host Memory) :
    List Value → World Memory → List (List Action) → World Memory → Prop where
  | nil (world : World Memory) : Resolves host [] world [] world
  | cons (fuel : Nat) {registration : Value} {others : List Value} {actions : List Action}
      {groups : List (List Action)} {start next last : World Memory} :
      (Registration.resolve host fuel registration).run start = (.ok actions, next) →
      Resolves host others (afterKeeping next actions) groups last →
      Resolves host (registration :: others) start (actions :: groups) last

namespace Resolves

variable {start last : World Memory} {groups : List (List Action)}

theorem of_append {front behind : List Value}
    (resolves : Resolves host (front ++ behind) start groups last) :
    ∃ own others between, groups = own ++ others ∧ Resolves host front start own between ∧
      Resolves host behind between others last := by
  induction front generalizing start groups with
  | nil => exact ⟨[], groups, start, rfl, .nil start, resolves⟩
  | cons registration front ih =>
      cases resolves with
      | cons fuel resolved rest =>
          obtain ⟨own, others, between, rfl, before, after⟩ := ih rest
          exact ⟨_ :: own, others, between, rfl, .cons fuel resolved before, after⟩

/-- Actions stand for themselves. -/
theorem of_actions {actions : List Action}
    (resolves : Resolves host (actions.map .action) start groups last) :
    groups.flatten = actions := by
  induction actions generalizing start groups with
  | nil =>
      cases resolves
      rfl
  | cons action actions ih =>
      cases resolves with
      | cons fuel resolved rest =>
          cases fuel with
          | zero => cases resolved
          | succ fuel =>
              obtain ⟨⟨⟩, rfl⟩ := Prod.mk.inj resolved
              rw [List.flatten_cons, ih rest]
              rfl

end Resolves

/-- A preparation that succeeds resolves all registrations that are left, and those that are made
meanwhile. -/
theorem Prepares.resolves {fuel : Nat} {world : World Memory} {preparation : Preparation Memory}
    {actions : List Action} (prepares : Prepares host fuel world preparation)
    (only : host.OnlyRegisters) (prepared : preparation.result = .ok actions) :
    ∃ groups added,
      preparation.world.engine.registrations = world.engine.registrations ++ added ∧
      Resolves host (world.engine.registrations.drop world.engine.resolved ++ added) world groups
        preparation.world ∧
      actions = world.engine.actions ++ groups.flatten := by
  induction prepares with
  | cutOff world => cases prepared
  | @finished fuel world all =>
      cases prepared
      have none : world.engine.registrations.drop world.engine.resolved = [] :=
        List.drop_eq_nil_iff.mpr (List.getElem?_eq_none_iff.mp all)
      refine ⟨[], [], (List.append_nil _).symm, ?_, (List.append_nil _).symm⟩
      rw [none]
      exact .nil world
  | failed waiting result => cases prepared
  | @kept fuel world registration own rest waiting result _ ih =>
      obtain ⟨groups, later, registrations, resolves, same⟩ := ih prepared
      obtain ⟨added, after⟩ := only.resolve fuel registration world
      obtain ⟨bound, here⟩ := List.getElem?_eq_some_iff.mp waiting
      have grown : (afterKeeping
          (attempt host fuel world.engine.resolved registration world).last own).engine =
          { world.engine with
            registrations := world.engine.registrations ++ added
            actions := world.engine.actions ++ own
            resolved := world.engine.resolved + 1 } :=
        congrArg (fun engine => engine.keeping own) after
      rw [grown] at registrations resolves same
      refine ⟨own :: groups, added ++ later, ?_, ?_, ?_⟩
      · rw [← List.append_assoc]
        exact registrations
      · have left : world.engine.registrations.drop world.engine.resolved ++ (added ++ later) =
            registration :: ((world.engine.registrations ++ added).drop
              (world.engine.resolved + 1) ++ later) := by
          rw [List.drop_append_of_le_length bound, List.append_assoc,
            List.drop_eq_getElem_cons bound, here, List.cons_append]
        rw [left]
        exact .cons fuel (Prod.ext result rfl) resolves
      · rw [List.flatten_cons, ← List.append_assoc]
        exact same

end Engine

namespace CommandLine

open Library (Memory)

variable {host : Host Memory} {fuel : Nat}

/-- Scripts that run one after the other, each on the session that the one before has left. -/
inductive Runs (host : Host Memory) (fuel : Nat) :
    List String → Session Memory → Session Memory → Prop where
  | nil (session : Session Memory) : Runs host fuel [] session session
  | cons {content : String} {others : List String} {start next last : Session Memory} :
      (Run.script host fuel (.text content)).run start = (.ok (), next) →
      Runs host fuel others next last → Runs host fuel (content :: others) start last

section Running

variable {front : List String} {start next last : Session Memory}

theorem runScripts_append (runs : Runs host fuel front start next) (behind : List String) :
    (runScripts host fuel (front ++ behind)).run start =
      (runScripts host fuel behind).run next := by
  induction runs with
  | nil session => rfl
  | cons ran _ ih =>
      rw [List.cons_append, runScripts, run_bind_of_ok ran]
      exact ih

theorem runScripts_of_runs (runs : Runs host fuel front start last) :
    (runScripts host fuel front).run start = (.ok (), last) := by
  have all := runScripts_append runs []
  rw [List.append_nil] at all
  exact all

/-- A script that fails is the last one. -/
theorem runScripts_of_fails {content : String} {failure : Failure}
    (runs : Runs host fuel front start next)
    (failed : (Run.script host fuel (.text content)).run next = (.error failure, last))
    (behind : List String) :
    (runScripts host fuel (front ++ content :: behind)).run start = (.error failure, last) := by
  rw [runScripts_append runs, runScripts]
  exact run_bind_of_error failed

/-- Scripts run up to the first one that fails. -/
theorem exists_runs (host : Host Memory) (fuel : Nat) (contents : List String)
    (start : Session Memory) :
    (∃ last, Runs host fuel contents start last) ∨
      ∃ front content behind next failure last, contents = front ++ content :: behind ∧
        Runs host fuel front start next ∧
        (Run.script host fuel (.text content)).run next = (.error failure, last) := by
  induction contents generalizing start with
  | nil => exact Or.inl ⟨start, .nil start⟩
  | cons content others ih =>
      rcases ran : (Run.script host fuel (.text content)).run start with ⟨failure | ⟨⟩, next⟩
      · exact Or.inr ⟨[], content, others, start, failure, next, rfl, .nil start, ran⟩
      · rcases ih next with ⟨last, runs⟩ | ⟨front, other, behind, between, failure, last, rfl,
          runs, failed⟩
        · exact Or.inl ⟨last, .cons ran runs⟩
        · exact Or.inr ⟨content :: front, other, behind, between, failure, last, rfl,
            .cons ran runs, failed⟩

/-- What is left to do when all scripts have run: the state is written. -/
def writeAndFinish (request : Request) (given : Entries Value) : Procedure Memory Ending := do
  writeState request.output given.names
  return .finished

/-- How the command ends when a script fails. -/
def endingOf : Failure → Except Failure Ending
  | .fault fault => .ok (.refused (errorMessage fault.message))
  | failure => .error failure

variable {request : Request} {given : Entries Value}

theorem conclude_of_runs {contents : List String} (runs : Runs host fuel contents start last) :
    (conclude host fuel request given contents).run start =
      (writeAndFinish request given).run last := by
  have attempted : (Procedure.attempt (runScripts host fuel contents)).run start =
      (.ok (.ok ()), last) := by
    rw [Procedure.run_attempt, runScripts_of_runs runs]
  rw [conclude, run_bind_of_ok attempted]
  rfl

theorem conclude_of_fails {content : String} {failure : Failure}
    (runs : Runs host fuel front start next)
    (failed : (Run.script host fuel (.text content)).run next = (.error failure, last))
    (behind : List String) :
    (conclude host fuel request given (front ++ content :: behind)).run start =
      (endingOf failure, last) := by
  have attempted : (Procedure.attempt
      (runScripts host fuel (front ++ content :: behind))).run start =
      (.ok (.error failure), last) := by
    rw [Procedure.run_attempt, runScripts_of_fails runs failed]
  rw [conclude, run_bind_of_ok attempted]
  cases failure <;> rfl

/-- How the command ends when it runs some scripts: all of them run, and the state is written, or
one of them fails behind those that run, and that is the last that happens. -/
def EndsInTurn (host : Host Memory) (fuel : Nat) (request : Request) (given : Entries Value)
    (contents : List String) (start : Session Memory)
    (ended : Except Failure Ending × Session Memory) : Prop :=
  (∃ last, Runs host fuel contents start last ∧
    ended = (writeAndFinish request given).run last) ∨
  ∃ front content behind next failure last, contents = front ++ content :: behind ∧
    Runs host fuel front start next ∧
    (Run.script host fuel (.text content)).run next = (.error failure, last) ∧
    ended = (endingOf failure, last)

theorem conclude_endsInTurn (host : Host Memory) (fuel : Nat) (request : Request)
    (given : Entries Value) (contents : List String) (start : Session Memory) :
    EndsInTurn host fuel request given contents start
      ((conclude host fuel request given contents).run start) := by
  rcases exists_runs host fuel contents start with ⟨last, runs⟩ |
    ⟨front, content, behind, next, failure, last, rfl, runs, failed⟩
  · exact Or.inl ⟨last, runs, conclude_of_runs runs⟩
  · exact Or.inr ⟨front, content, behind, next, failure, last, rfl, runs, failed,
      conclude_of_fails runs failed behind⟩

end Running

section Sequence

variable {files : Files} {request : Request} {options : Options} {start ready : World Memory}
  {contents : List String} {values : List Value}

/-- The actions for comments that an engine starts with. -/
def ownActions (options : Options) : List Action :=
  if options.common.truthy then Bundled.Comments.actions else []

/-- The bundled actions that a request asks for. -/
def Request.bundled (request : Request) : List Action :=
  if request.noBundled then [] else Bundled.actions

/-- The registrations that the values of libraries are. -/
def registeredBy (values : List Value) : List Value :=
  values.flatMap fun value => value.items?.getD [value]

/-- The engine with all libraries registered and nothing resolved yet. -/
def loadedEngine (options : Options) (request : Request) (values : List Value) : Engine where
  options := options
  registrations :=
    (ownActions options).map .action ++ request.bundled.map .action ++ registeredBy values

theorem equipped_silent (world : World Memory) (options : Options) :
    world.Silent (equipped world options) :=
  ⟨rfl, rfl, rfl⟩

theorem bundle_silent (request : Request) (world : World Memory) :
    world.Silent (request.bundle world) := by
  unfold Request.bundle
  split
  · exact World.Silent.refl world
  · exact ⟨rfl, rfl, rfl⟩

theorem bundle_engine (request : Request) (world : World Memory) (options : Options) :
    (request.bundle (equipped world options)).engine =
      { Engine.ofOptions options with
        registrations :=
          (ownActions options).map .action ++ request.bundled.map .action } := by
  have own : (Engine.ofOptions options).registrations = (ownActions options).map .action := by
    unfold Engine.ofOptions ownActions
    split <;> rfl
  unfold Request.bundle Request.bundled
  split
  · rw [List.map_nil, List.append_nil, ← own]
    rfl
  · rw [← own]
    rfl

theorem Loads.loadedEngine_eq {last : World Memory}
    (loads : Loads files request.libraries (request.bundle (equipped start options))
      (.ok values) last) : last.engine = loadedEngine options request values := by
  rw [loads.engine_eq, bundle_engine]
  rfl

/-- Scripts are loaded when all libraries are. -/
theorem Loading.exists_values
    (loading : Loading files request (equipped start options) (.scripts contents) ready) :
    ∃ values last, Loads files request.libraries (request.bundle (equipped start options))
      (.ok values) last ∧ ready.engine = loadedEngine options request values := by
  cases loading with
  | given loads holding filled => exact ⟨_, _, loads, loads.loadedEngine_eq⟩
  | typed loads none whole => exact ⟨_, _, loads, loads.loadedEngine_eq⟩

/-- Whether something that a request names cannot be loaded: one of its libraries, or a script that
is not there. -/
def Lacks (files : Files) (request : Request) (start : World Memory) : Prop :=
  (∀ values last, ¬Loads files request.libraries (request.bundle start) (.ok values) last) ∨
    ∃ path ∈ request.scripts files, files.isThere path = false

/-- Whether a request names a script that is there but cannot be read. -/
def HasUnreadable (files : Files) (request : Request) (fault : Fault) : Prop :=
  ∃ path ∈ request.scripts files, files.isThere path = true ∧ files.text path = .error fault

/-- A request without scripts lacks nothing once its libraries are loaded. -/
theorem not_lacks {last : World Memory}
    (loads : Loads files request.libraries (request.bundle start) (.ok values) last)
    (none : request.scripts files = []) : ¬Lacks files request start := by
  intro lacks
  rcases lacks with refused | ⟨path, member, missing⟩
  · exact refused _ _ loads
  · rw [none] at member
    cases member

/-- If something cannot be loaded, loading ends without a script, and nothing has happened. It ends
with a message, unless a script cannot be read. -/
theorem Loading.unfinished {loaded : Loaded} {last : World Memory}
    (loading : Loading files request start loaded last) (lacks : Lacks files request start) :
    start.Silent last ∧ ((∃ message, loaded = .refused message) ∨
      ∃ fault, loaded = .failed fault ∧ HasUnreadable files request fault) := by
  have bundled := bundle_silent request start
  cases loading with
  | unregistered loads => exact ⟨bundled.trans loads.silent, Or.inl ⟨_, rfl⟩⟩
  | missing loads => exact ⟨bundled.trans loads.silent, Or.inl ⟨_, rfl⟩⟩
  | @unreadable _ front behind path _ _ _ loads split holding there unreadable =>
      have member : path ∈ request.scripts files := by
        rw [split]
        exact List.mem_append_right front List.mem_cons_self
      exact ⟨bundled.trans loads.silent, Or.inr ⟨_, rfl, path, member, there, unreadable⟩⟩
  | given loads holding filled =>
      rcases lacks with none | ⟨path, member, missing⟩
      · exact absurd loads (none _ _)
      · have there := isThere_of_holds holding path member
        rw [missing] at there
        cases there
  | typed loads none whole => exact absurd lacks (not_lacks loads none)
  | broken loads none broken => exact absurd lacks (not_lacks loads none)

/-- If nothing is lacking and all can be read, scripts are loaded. -/
theorem Loading.exists_scripts (complete : ¬Lacks files request start)
    (readable : ∀ fault, ¬HasUnreadable files request fault)
    (whole : request.scripts files = [] → start.memory.console.broken = none) :
    ∃ contents last, Loading files request start (.scripts contents) last := by
  have registered : ∃ values last,
      Loads files request.libraries (request.bundle start) (.ok values) last := by
    by_contra refused
    refine complete (Or.inl ?_)
    intro values last loads
    exact refused ⟨values, last, loads⟩
  obtain ⟨loaded, last, loading⟩ := exists_loading files request start
  cases loading with
  | unregistered loads =>
      obtain ⟨values, other, all⟩ := registered
      have ran := all.run
      rw [loads.run] at ran
      cases ran
  | @missing _ front _ path _ _ loads split holding missing =>
      refine absurd (Or.inr ⟨path, ?_, missing⟩) complete
      rw [split]
      exact List.mem_append_right front List.mem_cons_self
  | @unreadable _ front _ path _ fault _ loads split holding there unreadable =>
      refine absurd ⟨path, ?_, there, unreadable⟩ (readable fault)
      rw [split]
      exact List.mem_append_right front List.mem_cons_self
  | given loads holding filled => exact ⟨_, _, .given loads holding filled⟩
  | typed loads none whole => exact ⟨_, _, .typed loads none whole⟩
  | broken loads none broken =>
      have same := ((bundle_silent request start).trans loads.silent).console
      rw [same, whole none] at broken
      cases broken

/-- Whether a preparation that succeeds makes the actions for comments, the bundled ones, those of
the libraries in their order, and behind them those that are registered meanwhile. -/
def PreparesInOrder (host : Host Memory) (options : Options) (request : Request)
    (values : List Value) (ready : World Memory) : Prop :=
  ∀ fuel actions last, (Engine.prepare host fuel).run ready = (.ok actions, last) →
    ∃ first own between added more,
      last.engine.registrations = ready.engine.registrations ++ added ∧
      Engine.Resolves host (registeredBy values) first own between ∧
      Engine.Resolves host added between more last ∧
      actions = ownActions options ++ request.bundled ++ own.flatten ++ more.flatten

/-- An engine with all libraries registered is prepared in their order. -/
theorem preparesInOrder_of_engine (only : host.OnlyRegisters)
    (engine : ready.engine = loadedEngine options request values) :
    PreparesInOrder host options request values ready := by
  intro less actions last prepared
  rw [Engine.prepare_run] at prepared
  obtain ⟨result, rfl⟩ := Prod.mk.inj prepared
  obtain ⟨groups, added, registrations, resolves, same⟩ :=
    (Engine.prepares_preparation host less ready).resolves only result
  rw [engine] at resolves same
  change Engine.Resolves host ((ownActions options).map .action ++
    request.bundled.map .action ++ registeredBy values ++ added) ready groups _ at resolves
  obtain ⟨front, more, between, rfl, resolves, meanwhile⟩ := resolves.of_append
  obtain ⟨first, own, next, rfl, resolves, libraries⟩ := resolves.of_append
  rw [← List.map_append] at resolves
  refine ⟨next, own, between, added, more, registrations, libraries, meanwhile, ?_⟩
  rw [same, List.flatten_append, List.flatten_append, resolves.of_actions]
  exact List.nil_append _

/-- **Everything is loaded before anything runs.** If a library or a script that the command line
names cannot be loaded, wherever it stands, the command ends without a success and is the same for
every host: no function has been called, nothing has been noted, read or written, and the state is
as it was. It ends with a message, unless the options fail or a script that is there cannot be read.
Otherwise, if everything can be read, the scripts are loaded. The engine then holds the
registrations for comments, the bundled ones and those of the libraries, and nothing has been
resolved. When they resolve, its actions are those for comments, the bundled ones, and those of the
libraries in their order, before any that are registered meanwhile. The scripts run in turn, the
first one on the given entries, and a script that fails is the last that happens. -/
theorem command_sequence {invocation : Invocation} {request : Request}
    (reading : invocation.reading = .ok (.request request)) (start : Session Memory) :
    ((∀ options, invocation.options = .ok options →
        Lacks invocation.files request (equipped start.world options)) →
      ∃ result last, (∀ host fuel, (command host fuel invocation).run start = (result, last)) ∧
        ((∃ message, result = .ok (.refused (errorMessage message))) ∨
          ∃ fault, result = .error (.fault fault) ∧ (invocation.options = .error fault ∨
            HasUnreadable invocation.files request fault)) ∧
        last.state = start.state ∧ start.world.Silent last.world) ∧
    (∀ options, invocation.options = .ok options →
      ¬Lacks invocation.files request (equipped start.world options) →
      (∀ fault, ¬HasUnreadable invocation.files request fault) →
      (request.scripts invocation.files = [] → start.world.memory.console.broken = none) →
      ∃ contents ready, Loading invocation.files request (equipped start.world options)
        (.scripts contents) ready) ∧
    ∀ options contents ready, invocation.options = .ok options →
      Loading invocation.files request (equipped start.world options) (.scripts contents) ready →
      ∃ values registered,
        Loads invocation.files request.libraries
          (request.bundle (equipped start.world options)) (.ok values) registered ∧
        ready.engine = loadedEngine options request values ∧
        ∀ host fuel,
          (host.OnlyRegisters → PreparesInOrder host options request values ready) ∧
          EndsInTurn host fuel request invocation.given contents ⟨invocation.given, ready⟩
            ((command host fuel invocation).run start) := by
  refine ⟨?_, ?_, ?_⟩
  · intro lacking
    cases valid : invocation.options with
    | error fault =>
        have refused host fuel := @command_run_of_fault _ _ host fuel start fault reading valid
        refine ⟨_, start, refused, ?_, rfl, World.Silent.refl start.world⟩
        cases fault with
        | invalidCommon problem => exact Or.inl ⟨_, rfl⟩
        | _ => exact Or.inr ⟨_, rfl, Or.inl rfl⟩
    | ok options =>
        obtain ⟨loaded, last, loading⟩ :=
          exists_loading invocation.files request (equipped start.world options)
        have carried host fuel :=
          @Loading.command_run _ _ _ host fuel start _ _ reading valid loading
        obtain ⟨silent, ended⟩ := loading.unfinished (lacking options valid)
        have silent := (equipped_silent start.world options).trans silent
        rcases ended with ⟨message, rfl⟩ | ⟨fault, rfl, unreadable⟩
        · exact ⟨_, _, carried, Or.inl ⟨message, rfl⟩, rfl, silent⟩
        · exact ⟨_, _, carried, Or.inr ⟨fault, rfl, Or.inr unreadable⟩, rfl, silent⟩
  · intro options valid complete readable whole
    exact Loading.exists_scripts complete readable whole
  · intro options contents ready valid loading
    obtain ⟨values, registered, loads, engine⟩ := loading.exists_values
    refine ⟨values, registered, loads, engine, ?_⟩
    intro host fuel
    refine ⟨?_, ?_⟩
    · intro only
      exact preparesInOrder_of_engine only engine
    · rw [loading.command_run reading valid]
      exact conclude_endsInTurn host fuel request invocation.given contents _

/-- A library with the actions for comments, and a script without lines. -/
def libraryAndScript : Files where
  directory := ⟨["work"]⟩
  contents := [(⟨["work", "lib.py"]⟩, .library .comments),
    (⟨["work", "a.txt"]⟩, .bytes ByteArray.empty)]

/-- The paths of both, and of a script that is not there. -/
def lackingScript : Invocation :=
  ⟨["a.txt", "lib.py", "b.txt"], [], libraryAndScript, "3.11"⟩

/-- The paths of both. -/
def lackingNothing : Invocation :=
  ⟨["a.txt", "lib.py"], [], libraryAndScript, "3.11"⟩

/-- The world with the library registered behind the bundled actions. -/
def libraryLoaded : World Memory where
  engine := loadedEngine ⟨.bool true, []⟩ { paths := ["a.txt", "lib.py"] }
    [.list (Bundled.Comments.actions.map .action)]
  notices := []
  memory := {}

theorem loading_lackingNothing :
    Loading libraryAndScript { paths := ["a.txt", "lib.py"] }
      (equipped nothingDone.world ⟨.bool true, []⟩) (.scripts [""]) libraryLoaded := by
  have loads (start : World Memory) : Loads libraryAndScript ["lib.py"] start
      (.ok [.list (Bundled.Comments.actions.map .action)])
      (registering start (.list (Bundled.Comments.actions.map .action))) :=
    .opened (.opened rfl rfl) (.nil _)
  exact .given (loads _) (.cons ⟨by decide, rfl⟩ .nil) (by decide)

theorem command_sequence_libraryAndScript :
    (∃ result last, (∀ host fuel, (command host fuel lackingScript).run nothingDone =
        (result, last)) ∧ result ≠ .ok .finished ∧ last.state = []) ∧
      (∃ contents ready, Loading libraryAndScript { paths := ["a.txt", "lib.py"] }
        (equipped nothingDone.world ⟨.bool true, []⟩) (.scripts contents) ready) ∧
      (∃ last own more, (Engine.prepare (Library.host 40 1) 9).run libraryLoaded =
        (.ok (Bundled.Comments.actions ++ Bundled.actions ++ own ++ more), last)) ∧
      EndsInTurn (Library.host 40 1) 40 { paths := ["a.txt", "lib.py"] } [] [""]
        ⟨[], libraryLoaded⟩ ((command (Library.host 40 1) 40 lackingNothing).run nothingDone) := by
  obtain ⟨lacks, -⟩ :=
    command_sequence (rfl : lackingScript.reading = .ok (.request _)) nothingDone
  obtain ⟨-, complete, loads⟩ :=
    command_sequence (rfl : lackingNothing.reading = .ok (.request _)) nothingDone
  obtain ⟨values, -, -, -, carried⟩ := loads _ _ _ rfl loading_lackingNothing
  obtain ⟨inOrder, inTurn⟩ := carried (Library.host 40 1) 40
  refine ⟨?_, ?_, ?_, inTurn⟩
  · obtain ⟨result, last, same, ended, state, -⟩ := lacks fun options _ => Or.inr
      ⟨⟨["work", "b.txt"]⟩, by decide, by decide⟩
    refine ⟨result, last, same, ?_, state⟩
    rcases ended with ⟨message, rfl⟩ | ⟨fault, rfl, -⟩ <;> rintro ⟨⟩
  · refine complete _ rfl ?_ ?_ (fun _ => rfl)
    · intro lacks
      obtain ⟨-, ⟨message, ⟨⟩⟩ | ⟨fault, ⟨⟩, -⟩⟩ := loading_lackingNothing.unfinished lacks
    · rintro fault ⟨path, member, -, unreadable⟩
      obtain rfl := List.mem_singleton.mp member
      have content : libraryAndScript.text ⟨["work", "a.txt"]⟩ = .ok "" := rfl
      exact nomatch content.symm.trans unreadable
  · obtain ⟨last, prepared⟩ : ∃ last,
        (Engine.prepare (Library.host 40 1) 9).run libraryLoaded =
          (.ok (Bundled.Comments.actions ++ Bundled.actions ++ Bundled.Comments.actions), last) :=
      ⟨_, rfl⟩
    obtain ⟨_, own, _, _, more, _, _, _, same⟩ :=
      inOrder (Library.usesEngine_host 40 1).toOnlyRegisters 9 _ _ prepared
    refine ⟨last, own.flatten, more.flatten, ?_⟩
    rw [prepared, same]
    rfl

end Sequence

end CommandLine

end LineScript
