import LineScript.CommandLine.Program
import LineScript.Proofs.Library.Conduct

/-!
# Loading

Before the command runs a script it *loads*: it opens the libraries in order and registers what
they hold, and then it reads the scripts. Loading calls no function and depends on no host. It ends
with the texts of the scripts, with a message about what cannot be loaded, or with a fault
(`LineScript.CommandLine.exists_loading`), and a request is served accordingly
(`LineScript.CommandLine.serve_run`).
-/

namespace LineScript

/-- Whether nothing has happened between two worlds: nothing has been noted, no declared function
has been called, and nothing has been read or written. -/
structure World.Silent (start last : World Library.Memory) : Prop where
  notices : last.notices = start.notices
  happenings : last.memory.happenings = start.memory.happenings
  console : last.memory.console = start.memory.console

namespace World.Silent

variable {start next last : World Library.Memory}

theorem refl (world : World Library.Memory) : world.Silent world :=
  ⟨rfl, rfl, rfl⟩

theorem trans (before : start.Silent next) (after : next.Silent last) : start.Silent last where
  notices := after.notices.trans before.notices
  happenings := after.happenings.trans before.happenings
  console := after.console.trans before.console

end World.Silent

namespace Library

/-- Whether a query does nothing but make a value: it leaves the engine as it is and nothing
happens, and it fails with faults only. -/
structure Makes (α : Type) (query : Query Memory α) : Prop where
  engine : ∀ start, (query.run start).2.engine = start.engine
  silent : ∀ start : World Memory, start.Silent (query.run start).2
  fault : ∀ start failure, (query.run start).1 = .error failure → ∃ fault, failure = .fault fault

theorem Makes.andThen {α β : Type} {first : Query Memory α} {next : α → Query Memory β}
    (makes : Makes α first) (rest : ∀ value, Makes β (next value)) : Makes β (first >>= next) := by
  refine ⟨?_, ?_, ?_⟩
  all_goals
    intro start
    have engine := makes.engine start
    have silent := makes.silent start
    have fault := makes.fault start
    rcases done : first.run start with ⟨failure | value, last⟩
    all_goals rw [done] at engine silent fault
  · rw [run_bind_of_error done]
    exact engine
  · rw [run_bind_of_ok done]
    exact ((rest value).engine last).trans engine
  · rw [run_bind_of_error done]
    exact silent
  · rw [run_bind_of_ok done]
    exact silent.trans ((rest value).silent last)
  · rw [run_bind_of_error done]
    rintro _ ⟨⟩
    exact fault failure rfl
  · rw [run_bind_of_ok done]
    exact (rest value).fault last

theorem buildersAre_makes : BuildersAre Makes where
  pure _ := ⟨fun _ => rfl, World.Silent.refl, fun _ _ failed => nomatch failed⟩
  andThen := Makes.andThen
  ofExcept result := by
    cases result with
    | ok value => exact ⟨fun _ => rfl, World.Silent.refl, fun _ _ failed => nomatch failed⟩
    | error fault =>
        refine ⟨fun _ => rfl, World.Silent.refl, ?_⟩
        rintro start failure ⟨⟩
        exact ⟨fault, rfl⟩
  options := ⟨fun _ => rfl, World.Silent.refl, fun _ _ failed => nomatch failed⟩
  addFunction _ := ⟨fun _ => rfl, fun _ => ⟨rfl, rfl, rfl⟩, fun _ _ failed => nomatch failed⟩
  addPromise _ := ⟨fun _ => rfl, fun _ => ⟨rfl, rfl, rfl⟩, fun _ _ failed => nomatch failed⟩
  addStream _ _ := ⟨fun _ => rfl, fun _ => ⟨rfl, rfl, rfl⟩, fun _ _ failed => nomatch failed⟩

/-- Following a recipe does nothing but make a value. -/
theorem Recipe.make_makes (recipe : Recipe) : Makes Value recipe.make :=
  buildersAre_makes.make recipe

end Library

namespace CommandLine

open Library (Memory)

/-- The libraries that a request names. -/
def Request.libraries (request : Request) : List String :=
  request.paths.filter fun path => !isScript path

/-- The scripts that a request names. -/
def Request.scripts (request : Request) (files : Files) : List Path :=
  (request.paths.filter isScript).map files.directory.resolve

/-- The world after something has been registered. -/
def registering (world : World Memory) (value : Value) : World Memory :=
  { world with engine := world.engine.register value }

theorem registers_registering (world : World Memory) (value : Value) :
    world.Registers (registering world value) :=
  ⟨_, rfl⟩

/-- The world in which the libraries of a request are opened: the bundled actions are registered,
unless the request is without them. -/
def Request.bundle (request : Request) (world : World Memory) : World Memory :=
  if request.noBundled then world
  else registering world (.list (Bundled.actions.map .action))

variable {files : Files}

section Libraries

/-- What a library comes to when it is opened: its value, or nothing if there is no such library or
if following its recipe fails. -/
inductive Opens (files : Files) (path : String) (start : World Memory) :
    Option Value → World Memory → Prop where
  | absent :
      files.library? (files.directory.resolve path) = none → Opens files path start none start
  | broken {recipe : Library.Recipe} {fault : Fault} {last : World Memory} :
      files.library? (files.directory.resolve path) = some recipe →
      recipe.make.run start = (.error (.fault fault), last) → Opens files path start none last
  | opened {recipe : Library.Recipe} {value : Value} {last : World Memory} :
      files.library? (files.directory.resolve path) = some recipe →
      recipe.make.run start = (.ok value, last) → Opens files path start (some value) last

/-- What loading libraries comes to: their values, or the first path that no library is registered
for. -/
inductive Loads (files : Files) :
    List String → World Memory → Except String (List Value) → World Memory → Prop where
  | nil (world : World Memory) : Loads files [] world (.ok []) world
  | refused {path : String} {start last : World Memory} (others : List String) :
      Opens files path start none last → Loads files (path :: others) start (.error path) last
  | opened {path : String} {others : List String} {value : Value} {start next last : World Memory}
      {result : Except String (List Value)} :
      Opens files path start (some value) next →
      Loads files others (registering next value) result last →
      Loads files (path :: others) start (result.map (value :: ·)) last

theorem exists_opens (files : Files) (path : String) (start : World Memory) :
    ∃ value last, Opens files path start value last := by
  cases found : files.library? (files.directory.resolve path) with
  | none => exact ⟨none, start, .absent found⟩
  | some recipe =>
      rcases made : recipe.make.run start with ⟨failure | value, last⟩
      · obtain ⟨fault, rfl⟩ := recipe.make_makes.fault start failure (by rw [made])
        exact ⟨none, last, .broken found made⟩
      · exact ⟨some value, last, .opened found made⟩

theorem exists_loads (files : Files) (paths : List String) (start : World Memory) :
    ∃ result last, Loads files paths start result last := by
  induction paths generalizing start with
  | nil => exact ⟨_, start, .nil start⟩
  | cons path others ih =>
      obtain ⟨value, next, opens⟩ := exists_opens files path start
      cases value with
      | none => exact ⟨_, next, .refused others opens⟩
      | some value =>
          obtain ⟨result, last, loads⟩ := ih (registering next value)
          exact ⟨_, last, .opened opens loads⟩

/-- Opening a library leaves the engine as it is, and nothing happens. -/
theorem Opens.silent {path : String} {start last : World Memory} {value : Option Value}
    (opens : Opens files path start value last) :
    last.engine = start.engine ∧ start.Silent last := by
  cases opens with
  | absent found => exact ⟨rfl, World.Silent.refl start⟩
  | @broken recipe _ _ found made =>
      have engine := recipe.make_makes.engine start
      have silent := recipe.make_makes.silent start
      rw [made] at engine silent
      exact ⟨engine, silent⟩
  | @opened recipe _ _ found made =>
      have engine := recipe.make_makes.engine start
      have silent := recipe.make_makes.silent start
      rw [made] at engine silent
      exact ⟨engine, silent⟩

namespace Loads

variable {paths : List String} {start last : World Memory} {result : Except String (List Value)}

theorem silent (loads : Loads files paths start result last) : start.Silent last := by
  induction loads with
  | nil world => exact World.Silent.refl world
  | refused others opens => exact opens.silent.2
  | opened opens _ ih => exact opens.silent.2.trans ⟨ih.notices, ih.happenings, ih.console⟩

/-- Loading libraries does nothing to the engine but register. -/
theorem registers (loads : Loads files paths start result last) : start.Registers last := by
  induction loads with
  | nil world => exact Std.Refl.refl world
  | refused others opens => exact World.registers_of_engine_eq opens.silent.1
  | opened opens _ ih =>
      refine IsTrans.trans _ _ _ (World.registers_of_engine_eq opens.silent.1) ?_
      exact IsTrans.trans _ _ _ (registers_registering _ _) ih

/-- Libraries that load are registered in order. -/
theorem engine_eq {values : List Value} (loads : Loads files paths start (.ok values) last) :
    last.engine = { start.engine with
      registrations := start.engine.registrations ++
        values.flatMap fun value => value.items?.getD [value] } := by
  generalize same : Except.ok values = result at loads
  induction loads generalizing values with
  | nil world =>
      cases same
      simp
  | refused others opens => cases same
  | @opened _ _ value start next last result opens loads ih =>
      cases result with
      | error path => cases same
      | ok others =>
          cases same
          rw [ih rfl, List.flatMap_cons, ← List.append_assoc]
          simp only [registering, Engine.register, opens.silent.1]

end Loads

/-- A library that is opened is registered. -/
theorem Opens.run {path : String} {start last : World Memory} {value : Option Value}
    (opens : Opens files path start value last) :
    (registerLibrary files path).run start =
      (.ok value.isSome, value.elim last (registering last)) := by
  cases opens with
  | absent found =>
      simp only [registerLibrary, found]
      rfl
  | @broken recipe fault _ found made =>
      have followed : (some <$> recipe.make).run start = (.error (.fault fault), last) := by
        rw [map_eq_pure_bind]
        exact run_bind_of_error made
      simp only [registerLibrary, found]
      rw [@run_bind_of_ok _ _ _ _ _ start last none]
      · rfl
      · rw [run_tryCatch, followed]
        rfl
  | @opened recipe value _ found made =>
      have followed : (some <$> recipe.make).run start = (.ok (some value), last) := by
        rw [map_eq_pure_bind]
        exact run_bind_of_ok made
      simp only [registerLibrary, found]
      rw [@run_bind_of_ok _ _ _ _ _ start last (some value)]
      · rfl
      · rw [run_tryCatch, followed]

/-- The first path, if any, that no library is registered for. -/
def unregistered? : Except String (List Value) → Option String
  | .ok _ => none
  | .error path => some path

theorem Loads.run {paths : List String} {start last : World Memory}
    {result : Except String (List Value)} (loads : Loads files paths start result last) :
    (registerLibraries files paths).run start = (.ok (unregistered? result), last) := by
  induction loads with
  | nil world => rfl
  | refused others opens =>
      rw [registerLibraries, run_bind_of_ok opens.run]
      rfl
  | @opened _ _ _ _ _ _ result opens _ ih =>
      rw [registerLibraries, run_bind_of_ok opens.run]
      refine ih.trans ?_
      cases result <;> rfl

end Libraries

section Scripts

/-- Whether a path leads to a script with some text. -/
def Holds (files : Files) (path : Path) (content : String) : Prop :=
  files.isThere path = true ∧ files.text path = .ok content

theorem isThere_of_holds {paths : List Path} {contents : List String}
    (holding : List.Forall₂ (Holds files) paths contents) :
    ∀ path ∈ paths, files.isThere path = true := by
  induction holding with
  | nil => exact List.forall_mem_nil _
  | cons holds _ ih => exact List.forall_mem_cons.mpr ⟨holds.1, ih⟩

theorem readScripts_append {front : List Path} {contents : List String}
    (holding : List.Forall₂ (Holds files) front contents) (paths : List Path) :
    readScripts files (front ++ paths) =
      Except.map (contents ++ ·) <$> readScripts files paths := by
  induction holding with
  | nil =>
      rw [List.nil_append]
      rcases readScripts files paths with fault | (missing | contents) <;> rfl
  | cons holds _ ih =>
      rw [List.cons_append, readScripts, holds.1, holds.2, ih]
      rcases readScripts files paths with fault | (missing | contents) <;> rfl

/-- Scripts are read up to the first one that is not there or cannot be read. -/
theorem exists_of_readScripts (files : Files) (paths : List Path) :
    (∃ contents, List.Forall₂ (Holds files) paths contents) ∨
      ∃ front path behind contents, paths = front ++ path :: behind ∧
        List.Forall₂ (Holds files) front contents ∧
        (files.isThere path = false ∨
          files.isThere path = true ∧ ∃ fault, files.text path = .error fault) := by
  induction paths with
  | nil => exact Or.inl ⟨[], .nil⟩
  | cons path others ih =>
      cases there : files.isThere path with
      | false => exact Or.inr ⟨[], path, others, [], rfl, .nil, Or.inl there⟩
      | true =>
          cases text : files.text path with
          | error fault =>
              exact Or.inr ⟨[], path, others, [], rfl, .nil, Or.inr ⟨there, fault, text⟩⟩
          | ok content =>
              rcases ih with ⟨contents, holding⟩ |
                ⟨front, last, behind, contents, rfl, holding, ended⟩
              · exact Or.inl ⟨_, .cons ⟨there, text⟩ holding⟩
              · exact Or.inr ⟨path :: front, last, behind, _, rfl,
                  .cons ⟨there, text⟩ holding, ended⟩

theorem readScripts_of_holds {paths : List Path} {contents : List String}
    (holding : List.Forall₂ (Holds files) paths contents) :
    readScripts files paths = .ok (.ok contents) := by
  have all := readScripts_append holding []
  rw [List.append_nil] at all
  rw [all]
  change Except.ok (Except.ok (contents ++ [])) = _
  rw [List.append_nil]

theorem readScripts_of_missing {front : List Path} {contents : List String}
    (holding : List.Forall₂ (Holds files) front contents) {path : Path}
    (missing : files.isThere path = false) (behind : List Path) :
    readScripts files (front ++ path :: behind) = .ok (.error path) := by
  rw [readScripts_append holding, readScripts, missing]
  rfl

theorem readScripts_of_unreadable {front : List Path} {contents : List String}
    (holding : List.Forall₂ (Holds files) front contents) {path : Path} {fault : Fault}
    (there : files.isThere path = true) (unreadable : files.text path = .error fault)
    (behind : List Path) : readScripts files (front ++ path :: behind) = .error fault := by
  rw [readScripts_append holding, readScripts, there, unreadable]
  rfl

end Scripts

section Requests

/-- What loading comes to: the texts of the scripts to run, a message about what cannot be loaded,
or a fault. -/
inductive Loaded where
  | scripts (contents : List String)
  | refused (message : String)
  | failed (fault : Fault)

/-- The message about a path that no library is registered for. -/
def unregisteredMessage (files : Files) (path : String) : String :=
  "unable to register library \"" ++ (files.directory.resolve path).shown ++ "\""

/-- The message about a script that is not there. -/
def missingMessage (path : Path) : String :=
  "file could not be loaded: " ++ path.shown

/-- The world after all that is left of the console has been read. -/
def afterConsole (world : World Memory) : World Memory :=
  { world with
    memory := { world.memory with console := { world.memory.console with input := [] } } }

/-- The course of loading what a request names: first the libraries, then the scripts, and the
console if there are none. -/
inductive Loading (files : Files) (request : Request) (start : World Memory) :
    Loaded → World Memory → Prop where
  | unregistered {path : String} {last : World Memory} :
      Loads files request.libraries (request.bundle start) (.error path) last →
      Loading files request start (.refused (unregisteredMessage files path)) last
  | missing {values : List Value} {front behind : List Path} {path : Path}
      {contents : List String} {last : World Memory} :
      Loads files request.libraries (request.bundle start) (.ok values) last →
      request.scripts files = front ++ path :: behind →
      List.Forall₂ (Holds files) front contents → files.isThere path = false →
      Loading files request start (.refused (missingMessage path)) last
  | unreadable {values : List Value} {front behind : List Path} {path : Path}
      {contents : List String} {fault : Fault} {last : World Memory} :
      Loads files request.libraries (request.bundle start) (.ok values) last →
      request.scripts files = front ++ path :: behind →
      List.Forall₂ (Holds files) front contents → files.isThere path = true →
      files.text path = .error fault → Loading files request start (.failed fault) last
  | given {values : List Value} {contents : List String} {last : World Memory} :
      Loads files request.libraries (request.bundle start) (.ok values) last →
      List.Forall₂ (Holds files) (request.scripts files) contents → contents ≠ [] →
      Loading files request start (.scripts contents) last
  | typed {values : List Value} {last : World Memory} :
      Loads files request.libraries (request.bundle start) (.ok values) last →
      request.scripts files = [] → last.memory.console.broken = none →
      Loading files request start (.scripts [String.ofList last.memory.console.input])
        (afterConsole last)
  | broken {values : List Value} {fault : Fault} {last : World Memory} :
      Loads files request.libraries (request.bundle start) (.ok values) last →
      request.scripts files = [] → last.memory.console.broken = some fault →
      Loading files request start (.failed fault) last

theorem exists_loading (files : Files) (request : Request) (start : World Memory) :
    ∃ loaded last, Loading files request start loaded last := by
  obtain ⟨result, last, loads⟩ := exists_loads files request.libraries (request.bundle start)
  cases result with
  | error path => exact ⟨_, last, .unregistered loads⟩
  | ok values =>
      rcases exists_of_readScripts files (request.scripts files) with ⟨contents, holding⟩ |
        ⟨front, path, behind, contents, split, holding, missing | ⟨there, fault, unreadable⟩⟩
      · by_cases none : request.scripts files = []
        · cases broken : last.memory.console.broken with
          | none => exact ⟨_, _, .typed loads none broken⟩
          | some fault => exact ⟨_, last, .broken loads none broken⟩
        · have filled : contents ≠ [] := by
            rintro rfl
            exact none (List.forall₂_nil_right_iff.mp holding)
          exact ⟨_, last, .given loads holding filled⟩
      · exact ⟨_, last, .missing loads split holding missing⟩
      · exact ⟨_, last, .unreadable loads split holding there unreadable⟩

theorem Loading.contents_ne_nil {request : Request} {start last : World Memory}
    {contents : List String}
    (loading : Loading files request start (.scripts contents) last) : contents ≠ [] := by
  cases loading with
  | given loads holding filled => exact filled
  | typed loads none whole => exact List.cons_ne_nil _ _

/-- Loading does nothing to the engine but register. -/
theorem Loading.registers {request : Request} {start last : World Memory} {loaded : Loaded}
    (loading : Loading files request start loaded last) : start.Registers last := by
  have bundled : start.Registers (request.bundle start) := by
    unfold Request.bundle
    split
    · exact Std.Refl.refl start
    · exact registers_registering _ _
  refine IsTrans.trans _ _ _ bundled ?_
  cases loading with
  | typed loads none whole => exact loads.registers
  | _ => exact Loads.registers ‹_›

/-- What is left to do when the scripts of a request have been loaded: they are run, and the final
state is written. -/
def conclude (host : Host Memory) (fuel : Nat) (request : Request) (given : Entries Value)
    (contents : List String) : Procedure Memory Ending := do
  match ← Procedure.attempt (runScripts host fuel contents) with
  | .error (.fault fault) => return .refused (errorMessage fault.message)
  | .error failure => throw failure
  | .ok _ =>
    writeState request.output given.names
    return .finished

/-- What is left to do when the libraries of a request have been registered: its scripts are read,
and then it is concluded. -/
def serveScripts (host : Host Memory) (fuel : Nat) (files : Files) (request : Request)
    (given : Entries Value) : Procedure Memory Ending :=
  match readScripts files (request.scripts files) with
  | .error fault => throw (.fault fault)
  | .ok (.error missing) => return .refused (errorMessage (missingMessage missing))
  | .ok (.ok contents) => do
    let contents ← Query.lift (scriptsOrConsole contents)
    Procedure.modifyState fun _ => given
    conclude host fuel request given contents

variable {request : Request} {host : Host Memory} {fuel : Nat} {given : Entries Value}

/-- The bundled actions come before the libraries, and these before all else. -/
theorem serve_run_bundled (start : Session Memory) :
    (serve host fuel files request given).run start =
      ((liftM (registerLibraries files request.libraries) : Procedure Memory (Option String)) >>=
        fun path =>
          match path with
          | some path => return .refused (errorMessage (unregisteredMessage files path))
          | none => serveScripts host fuel files request given).run
        (start.inWorld (request.bundle start.world)) := by
  unfold serve Request.bundle
  cases request.noBundled <;> rfl

/-- The scripts of a request are read when all its libraries are registered. -/
theorem Loads.serve_run {result : Except String (List Value)} {start : Session Memory}
    {last : World Memory}
    (loads : Loads files request.libraries (request.bundle start.world) result last) :
    (serve host fuel files request given).run start =
      match result with
      | .ok _ => (serveScripts host fuel files request given).run (start.inWorld last)
      | .error path =>
        (.ok (.refused (errorMessage (unregisteredMessage files path))), start.inWorld last) := by
  have registered : (liftM (registerLibraries files request.libraries) :
      Procedure Memory (Option String)).run (start.inWorld (request.bundle start.world)) =
      (.ok (unregistered? result), start.inWorld last) :=
    Procedure.run_lift_of_run loads.run
  rw [serve_run_bundled, run_bind_of_ok registered]
  cases result <;> rfl

theorem serveScripts_run_of_holds {contents : List String}
    (holding : List.Forall₂ (Holds files) (request.scripts files) contents)
    (filled : contents ≠ []) (start : Session Memory) :
    (serveScripts host fuel files request given).run start =
      (conclude host fuel request given contents).run ⟨given, start.world⟩ := by
  have same : scriptsOrConsole contents = pure contents := by
    cases contents with
    | nil => exact absurd rfl filled
    | cons content others => rfl
  simp only [serveScripts, readScripts_of_holds holding, same]
  rfl

theorem readConsole_run {world : World Memory} (whole : world.memory.console.broken = none) :
    readConsole.run world =
      (.ok (String.ofList world.memory.console.input), afterConsole world) := by
  have read : Memory.read.run world = (.ok world.memory, world) := rfl
  have taken : world.memory.console.takeAll =
      (.ok world.memory.console.input, { world.memory.console with input := [] }) := by
    simp [Console.takeAll, whole]
  rw [readConsole, run_bind_of_ok read]
  simp only [taken]
  rfl

theorem readConsole_run_of_broken {world : World Memory} {fault : Fault}
    (broken : world.memory.console.broken = some fault) :
    readConsole.run world = (.error (.fault fault), world) := by
  have read : Memory.read.run world = (.ok world.memory, world) := rfl
  have taken : world.memory.console.takeAll = (.error fault, world.memory.console) := by
    simp [Console.takeAll, broken]
  rw [readConsole, run_bind_of_ok read]
  simp only [taken]
  rfl

/-- Without a script the console is read. -/
theorem serveScripts_run_of_none (none : request.scripts files = [])
    {content : Except Failure String} {start : Session Memory} {last : World Memory}
    (read : readConsole.run start.world = (content, last)) :
    (serveScripts host fuel files request given).run start =
      match content with
      | .ok content => (conclude host fuel request given [content]).run ⟨given, last⟩
      | .error failure => (.error failure, start.inWorld last) := by
  have one : (scriptsOrConsole []).run start.world =
      (content.map fun content => [content], last) := by
    change (readConsole >>= fun content => pure [content]).run start.world = _
    cases content with
    | ok content => rw [run_bind_of_ok read]; rfl
    | error failure => rw [run_bind_of_error read]; rfl
  have lifted : (Query.lift (scriptsOrConsole []) : Procedure Memory (List String)).run start =
      (content.map fun content => [content], start.inWorld last) :=
    Procedure.run_lift_of_run one
  simp only [serveScripts, none, readScripts]
  cases content with
  | ok content => exact run_bind_of_ok lifted
  | error failure => exact run_bind_of_error lifted

/-- What the command comes to as loading ends: it runs the scripts on the initial state, or ends
with a message or a fault. -/
def afterLoading (host : Host Memory) (fuel : Nat) (request : Request) (given : Entries Value)
    (start : Session Memory) (last : World Memory) :
    Loaded → Except Failure Ending × Session Memory
  | .scripts contents => (conclude host fuel request given contents).run ⟨given, last⟩
  | .refused message => (.ok (.refused (errorMessage message)), start.inWorld last)
  | .failed fault => (.error (.fault fault), start.inWorld last)

theorem Loading.serve_run {start : Session Memory} {loaded : Loaded} {last : World Memory}
    (loading : Loading files request start.world loaded last) :
    (serve host fuel files request given).run start =
      afterLoading host fuel request given start last loaded := by
  cases loading with
  | unregistered loads => exact loads.serve_run
  | @missing _ _ behind _ _ _ loads split holding missing =>
      have read := readScripts_of_missing holding missing behind
      rw [← split] at read
      rw [loads.serve_run]
      simp only [serveScripts, read]
      rfl
  | @unreadable _ _ behind _ _ _ _ loads split holding there unreadable =>
      have read := readScripts_of_unreadable holding there unreadable behind
      rw [← split] at read
      rw [loads.serve_run]
      simp only [serveScripts, read]
      rfl
  | given loads holding filled =>
      rw [loads.serve_run]
      exact serveScripts_run_of_holds holding filled _
  | typed loads none whole =>
      rw [loads.serve_run]
      exact serveScripts_run_of_none none (readConsole_run whole)
  | broken loads none broken =>
      rw [loads.serve_run]
      exact serveScripts_run_of_none none (readConsole_run_of_broken broken)

end Requests

section Commands

/-- What the arguments of the command line itself are read as. -/
def Invocation.reading (invocation : Invocation) : Except UsageFault Reading :=
  readArguments (splitStateOptions invocation.arguments).1

/-- The entries for the state on the command line. -/
def Invocation.given (invocation : Invocation) : Entries Value :=
  (splitStateOptions invocation.arguments).2

/-- The options that the engine is made with. -/
def Invocation.options (invocation : Invocation) : Except Fault Options :=
  Options.loadSettings invocation.environment invocation.given

/-- The world with a new engine. -/
def equipped (world : World Memory) (options : Options) : World Memory :=
  { world with engine := Engine.ofOptions options }

variable {invocation : Invocation} {request : Request} {options : Options} {host : Host Memory}
  {fuel : Nat} {start : Session Memory}

theorem command_run_of_mistake {mistake : UsageFault}
    (reading : invocation.reading = .error mistake) :
    (command host fuel invocation).run start = (.ok (.misused mistake.report), start) := by
  unfold Invocation.reading at reading
  simp only [command, reading]
  rfl

/-- Instead of a request, a text may be asked for. -/
theorem command_run_of_help (reading : invocation.reading = .ok .help) :
    ∃ last, (command host fuel invocation).run start = (.ok .finished, last) := by
  unfold Invocation.reading at reading
  simp only [command, reading]
  exact ⟨_, rfl⟩

theorem command_run_of_version (reading : invocation.reading = .ok .version) :
    ∃ last, (command host fuel invocation).run start = (.ok .finished, last) := by
  unfold Invocation.reading at reading
  simp only [command, reading]
  exact ⟨_, rfl⟩

/-- A request is served in a new engine. -/
theorem command_run_of_options (reading : invocation.reading = .ok (.request request))
    (valid : invocation.options = .ok options) :
    (command host fuel invocation).run start =
      (serve host fuel invocation.files request invocation.given).run
        (start.inWorld (equipped start.world options)) := by
  unfold Invocation.reading at reading
  unfold Invocation.options Invocation.given at valid
  simp only [command, reading, valid]
  rfl

/-- How the command ends when options cannot be loaded: they are refused if their `common` is
invalid, and other faults leave the command. -/
def endingOfOptions : Fault → Except Failure Ending
  | .invalidCommon problem =>
    .ok (.refused (errorMessage ("invalid options: " ++ (Fault.invalidCommon problem).message)))
  | fault => .error (.fault fault)

theorem command_run_of_fault {fault : Fault}
    (reading : invocation.reading = .ok (.request request))
    (failed : invocation.options = .error fault) :
    (command host fuel invocation).run start = (endingOfOptions fault, start) := by
  unfold Invocation.reading at reading
  unfold Invocation.options Invocation.given at failed
  simp only [command, reading, failed]
  cases fault <;> rfl

/-- With options that load, the command comes to what loading and then running the scripts come
to. -/
theorem Loading.command_run {loaded : Loaded} {last : World Memory}
    (reading : invocation.reading = .ok (.request request))
    (valid : invocation.options = .ok options)
    (loading : Loading invocation.files request (equipped start.world options) loaded last) :
    (command host fuel invocation).run start =
      afterLoading host fuel request invocation.given start last loaded := by
  rw [command_run_of_options reading valid]
  have served := @Loading.serve_run _ _ host fuel invocation.given
    (start.inWorld (equipped start.world options)) _ _ loading
  rw [served]
  cases loaded <;> rfl

end Commands

end CommandLine

end LineScript
