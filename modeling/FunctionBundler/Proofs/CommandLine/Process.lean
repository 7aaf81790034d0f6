/-
Module: FunctionBundler.Proofs.CommandLine.Process
Purpose: What can happen from the arguments of the program to what it comes to.
Trusted boundary: none
Main exports:
  CommandLine.Process, CommandLine.Process.Prepares, CommandLine.Process.prepare_eq_ok_iff,
  Environment.Served, CommandLine.Process.Underway, CommandLine.Process.Executes,
  CommandLine.Process.Exits, CommandLine.Process.exists_executes
-/
import FunctionBundler.CommandLine
import FunctionBundler.Proofs.Fallible
import FunctionBundler.Proofs.Run.Lifecycle

namespace FunctionBundler

/-!
A process prepares a run from its arguments, its variables and the files, or stops at the
first fault.  Then the run goes on among its files, and the environment that was selected
performs what it is asked for; its tools may answer in any way, but it keeps to what an
environment does, and so it never panics.  From wherever a process has come to, it can be
led to its end.
-/

/-! ### The environment of a run -/

instance (query : Environment.Query) : Nonempty query.Answer :=
  match query with
  | .present _ | .installed _ => ⟨true⟩
  | .run _ _ | .launch _ _ | .execute _ _ _ | .remove _ => ⟨.error .notStarted⟩

/-- The environment performs the operations under labels, one after the other, whatever is answered
to what it asks for them. -/
inductive Environment.Served : Environment → List Label → Environment → Prop where
  | nil (environment : Environment) : Served environment [] environment
  | aside {environment last : Environment} {label : Label} {labels : List Label}
      (unasked : label.operation? = none) (later : Served environment labels last) :
      Served environment (label :: labels) last
  | performed {environment next last : Environment} {labels : List Label} {actor : Actor}
      {operation : Operation} {answer : operation.Answer}
      {said : List (Program.Exchange Environment.Query Environment.Query.Answer)}
      (performs : Program.Trace (environment.perform operation) said (next, answer))
      (later : Served next labels last) :
      Served environment
        (.exchange actor (.environment operation) (.answered answer) :: labels) last

namespace Environment

variable {environment middle last : Environment} {before after labels : List Label}

/-- What one environment has done can be continued. -/
theorem Served.append (one : Served environment before middle) (two : Served middle after last) :
    Served environment (before ++ after) last := by
  induction one with
  | nil => exact two
  | aside unasked _ ih => exact .aside unasked (ih two)
  | performed performs _ ih => exact .performed performs (ih two)

/-- The environment of a process never panics. -/
theorem Served.unpanicked (served : Served environment labels last) (actor : Actor)
    (operation : Operation) (cause : String) :
    Label.exchange actor (.environment operation) (.panicked cause) ∉ labels := by
  induction served with
  | nil => exact List.not_mem_nil
  | @aside _ _ label _ unasked _ ih =>
      refine List.not_mem_cons_of_ne_of_not_mem ?_ ih
      rintro rfl
      cases unasked
  | performed _ _ ih => exact List.not_mem_cons_of_ne_of_not_mem nofun ih

/-- An environment that stays as it is performs what a run asks for that is always answered alike.
-/
theorem served_of_settled {answers : FixedAnswers} {first finish : Scene}
    (performs : ∀ operation, ∃ said reply, answers operation = .answered reply ∧
      Program.Trace (environment.perform operation) said (environment, reply))
    (course : Scene.Course (Scene.Under (Settled answers)) first labels finish) :
    environment.Served labels environment := by
  induction course with
  | nil => exact .nil environment
  | @concat labels middle finish label _ step kept ih =>
      refine ih.append ?_
      cases label with
      | moved => exact .aside rfl (.nil _)
      | exchange actor request reply =>
          cases request with
          | environment operation =>
              obtain ⟨said, given, replies, trace⟩ := performs operation
              obtain rfl : reply = .answered given := kept.1.trans replies
              exact .performed trace (.nil _)
          | access | announce | call | clock | sleep => exact .aside rfl (.nil _)

/-- This machine stays as it is, whatever its tools answer. -/
theorem exists_trace_native (packages : Option PackageTool)
    (tools : (query : Query) → query.Answer) (operation : Operation) :
    ∃ said reply, Program.resultOn tools ((native packages).perform operation) =
        (native packages, reply) ∧
      Program.Trace ((native packages).perform operation) said (native packages, reply) := by
  have stays : ∃ reply, Program.resultOn tools ((native packages).perform operation) =
      (native packages, reply) := by
    cases operation with
    | start | stop => exact ⟨_, rfl⟩
    | strip | dependencies | baseLibraries => exact ⟨_, Program.resultOn_bind _ _⟩
  obtain ⟨reply, stays⟩ := stays
  obtain ⟨said, trace⟩ := @Program.exists_trace_resultOn _ _ _ tools
    ((native packages).perform operation)
  rw [stays] at trace
  exact ⟨said, reply, stays, trace⟩

/-- Whatever state a run and its environment are in, the next turn can be taken. -/
theorem exists_served_step (environment : Environment) {scene : Scene} (goesOn : ¬scene.Over) :
    ∃ label next later, scene.Step label next ∧ Served environment [label] later ∧
      ¬label.Stalls := by
  have performs (operation : Operation) : ∃ said later answer,
      Program.Trace (environment.perform operation) said (later, answer) := by
    obtain ⟨said, ⟨later, answer⟩, trace⟩ := Program.exists_trace (environment.perform operation)
    exact ⟨said, later, answer, trace⟩
  choose said later answer trace using performs
  obtain ⟨label, next, step, kept, settled⟩ := Scene.exists_advances
    (Habit.live_settled fun operation => .answered (answer operation)) goesOn
  cases label with
  | moved actor => exact ⟨_, next, environment, step, .aside rfl (.nil _), settled⟩
  | exchange actor request reply =>
      cases request with
      | environment operation =>
          obtain ⟨rfl, -⟩ := kept
          exact ⟨_, next, later operation, step, .performed (trace operation) (.nil _), settled⟩
      | access | announce | call | clock | sleep =>
          exact ⟨_, next, environment, step, .aside rfl (.nil _), settled⟩

/-- Every run of an environment can be led to its end. -/
theorem exists_served_over (environment : Environment) (scene : Scene) :
    ∃ labels finish later, Scene.Trace scene labels finish ∧ finish.Over ∧
      Served environment labels later := by
  induction scene using Scene.wellFounded_advances.induction generalizing environment with
  | _ scene ih =>
      by_cases isOver : scene.Over
      · exact ⟨[], scene, environment, .nil scene, isOver, .nil environment⟩
      · obtain ⟨label, next, middle, step, served, settled⟩ := environment.exists_served_step isOver
        obtain ⟨labels, finish, later, trace, isOver, rest⟩ := ih next ⟨label, step, settled⟩ middle
        exact ⟨[label] ++ labels, finish, later, .cons step trace, isOver, served.append rest⟩

end Environment

/-! ### Preparing a run -/

/-- Where the bytes of a text are stored, the text is read. -/
theorem Files.readText_of_read {files : Files} {path : Path} {text : String}
    (read : files.read path = .ok (Bytes.ofText text)) : files.readText path = .ok text := by
  rw [readText, read]
  change textOf (Bytes.ofText text) = _
  rw [textOf, Bytes.text?_ofText]

/-- Loading a manifest reads a text and then parses it. -/
theorem Manifest.load_eq (path : Path) (content : Except FileError Bytes) :
    load path content = (content.bind Files.textOf).mapError (.unreadable path) >>= fun text =>
      (read text).mapError .malformed := by
  rw [load]
  cases content.bind Files.textOf with
  | error fault => rfl
  | ok text =>
      change _ = (read text).mapError LoadFault.malformed
      dsimp only
      cases read text <;> rfl

namespace CommandLine

/-- What a process begins with: the architecture of the machine, its arguments, its variables, where
it works, the user's home, the files, and what is answered to an environment that is being
selected. -/
structure Process where
  host : Arch
  arguments : List String
  vars : Settings.Variables
  working : Path
  userHome : Option Path
  files : Files
  tools : (query : Environment.Query) → query.Answer

namespace Process

/-- What is answered while a run is prepared. -/
def answer (process : Process) : (query : Query) → query.Answer
  | .access wanted => (process.files.answer wanted).1
  | .environment query => process.tools query

/-- What preparing a run comes to. -/
def prepare (process : Process) (overrides : Overrides) : Except Fatal Prepared :=
  Program.resultOn process.answer
    (CommandLine.prepare process.host overrides process.vars process.working process.userHome).run

/-- The profile file as it is found. -/
def profileFile? (process : Process) : Option ProfileFile :=
  (Settings.profilePath? process.vars process.userHome).bind fun path =>
    if process.files.exists path then some ⟨path, process.files.readText path⟩ else none

/-- The environment that is selected for settings. -/
def environment (process : Process) (settings : Settings) : Except Failure Environment :=
  Program.resultOn process.tools
    (Environment.select process.host settings (Environment.engineSocket process.vars))

/-- The settings resolve, the manifest is read and parsed, and an environment can be selected. -/
structure Prepares (process : Process) (overrides : Overrides) (prepared : Prepared) : Prop where
  resolves : Settings.resolve process.host overrides process.vars process.working
    process.profileFile? = .ok prepared.settings
  parses : ∃ text, process.files.readText prepared.settings.manifestPath = .ok text ∧
    Manifest.read text = .ok prepared.manifest
  selects : process.environment prepared.settings = .ok prepared.environment

variable {process : Process} {overrides : Overrides} {prepared : Prepared}

private theorem resultOn_profileFile (process : Process) (path : Option Path) :
    Program.resultOn process.answer (profileFile path) = path.bind fun path =>
      if process.files.exists path then some ⟨path, process.files.readText path⟩ else none := by
  cases path with
  | none => rfl
  | some path =>
      have asks : Program.resultOn process.answer (profileFile (some path)) =
          Program.resultOn process.answer (if process.files.exists path = true then
            (do return some ⟨path, (← askFiles (.read path)).bind Files.textOf⟩)
          else return none) := rfl
      rw [asks, Option.bind_some]
      split <;> rfl

private theorem resultOn_lift {α : Type} (process : Process) (asked : Inquiry α) :
    Program.resultOn process.answer (ExceptT.lift asked : Preparation α).run =
      pure (Program.resultOn process.answer asked) := by
  rw [ExceptT.run_lift]
  exact Program.resultOn_bind ..

private theorem resultOn_blame {ε α : Type} (process : Process) (fatal : ε → Fatal)
    (result : Except ε α) :
    Program.resultOn process.answer (blame fatal result).run = result.mapError fatal := by
  cases result <;> rfl

/-- The parts of a prepared run, up to the first that cannot be had. -/
def gather (process : Process) (overrides : Overrides) : Except Fatal Prepared := do
  let settings ← (Settings.resolve process.host overrides process.vars process.working
    process.profileFile?).mapError .configuration
  let manifest ← (Manifest.load settings.manifestPath
    (process.files.read settings.manifestPath)).mapError (.manifest settings.manifestPath)
  let environment ← (process.environment settings).mapError .engine
  return ⟨settings, manifest, environment⟩

/-- A run is prepared when its parts are there and its calls can be counted. -/
theorem prepare_eq (process : Process) (overrides : Overrides) :
    process.prepare overrides = process.gather overrides >>= fun prepared =>
      if Pool.capacity < prepared.permits then .error .uncountable else .ok prepared := by
  -- Selecting an environment asks through the process what it asks of its tools.
  have selected (settings : Settings) : Program.resultOn process.answer
      ((Environment.select process.host settings
        (Environment.engineSocket process.vars)).answerWith askEnvironment) =
          process.environment settings :=
    Program.resultOn_answerWith askEnvironment _
  rw [prepare, CommandLine.prepare, gather]
  simp only [Program.resultOn_run_bind, resultOn_lift, resultOn_blame, resultOn_profileFile,
    selected, pure_bind, bind_assoc]
  refine bind_congr fun settings => bind_congr fun manifest => bind_congr fun environment => ?_
  split <;> rfl

private theorem gather_eq_ok_iff :
    process.gather overrides = .ok prepared ↔ process.Prepares overrides prepared := by
  simp only [gather, bind_eq_ok_iff, mapError_eq_ok_iff, Manifest.load_eq]
  constructor
  · rintro ⟨settings, resolves, manifest, ⟨text, read, parses⟩, environment, selects, ⟨⟩⟩
    exact ⟨resolves, ⟨text, read, parses⟩, selects⟩
  · rintro ⟨resolves, ⟨text, read, parses⟩, selects⟩
    exact ⟨_, resolves, _, ⟨text, read, parses⟩, _, selects, rfl⟩

private theorem gather_ne_uncountable : process.gather overrides ≠ .error .uncountable := by
  intro uncounted
  simp only [gather, bind_eq_error_iff, mapError_eq_error_iff] at uncounted
  rcases uncounted with ⟨_, -, ⟨⟩⟩ | ⟨_, -, ⟨_, -, ⟨⟩⟩ | ⟨_, -, ⟨_, -, ⟨⟩⟩ | ⟨_, -, ⟨⟩⟩⟩⟩

/-- The parts of a run that the inputs of a process determine. -/
theorem Prepares.unique {other : Prepared} (one : process.Prepares overrides prepared)
    (two : process.Prepares overrides other) : prepared = other :=
  Except.ok.inj ((gather_eq_ok_iff.mpr one).symm.trans (gather_eq_ok_iff.mpr two))

/-- A run is prepared exactly if all of its parts can be had and its calls can be counted. -/
theorem prepare_eq_ok_iff :
    process.prepare overrides = .ok prepared ↔
      process.Prepares overrides prepared ∧ prepared.permits ≤ Pool.capacity := by
  rw [prepare_eq, bind_eq_ok_iff]
  constructor
  · rintro ⟨other, gathered, counted⟩
    split at counted
    case isTrue => cases counted
    case isFalse countable =>
        cases counted
        exact ⟨gather_eq_ok_iff.mp gathered, Nat.le_of_not_lt countable⟩
  · rintro ⟨prepares, countable⟩
    exact ⟨prepared, gather_eq_ok_iff.mpr prepares, if_neg (Nat.not_lt_of_le countable)⟩

/-- Preparing is given up over the number of calls exactly if all else can be had. -/
theorem prepare_eq_uncountable_iff :
    process.prepare overrides = .error .uncountable ↔
      ∃ prepared, process.Prepares overrides prepared ∧ Pool.capacity < prepared.permits := by
  rw [prepare_eq, bind_eq_error_iff, or_iff_right gather_ne_uncountable]
  constructor
  · rintro ⟨prepared, gathered, counted⟩
    split at counted
    case isTrue uncountable => exact ⟨prepared, gather_eq_ok_iff.mp gathered, uncountable⟩
    case isFalse => cases counted
  · rintro ⟨prepared, prepares, uncountable⟩
    exact ⟨prepared, gather_eq_ok_iff.mpr prepares, if_pos uncountable⟩

/-! ### From the arguments to the end -/

/-- The process has prepared a run, and the run has come to a scene. -/
structure Underway (process : Process) (overrides : Overrides) (prepared : Prepared)
    (labels : List Label) (scene : Scene) : Prop where
  parses : ∃ verbose, Invocation.ofArguments process.arguments = .run overrides verbose
  prepares : process.prepare overrides = .ok prepared
  trace : Scene.Trace ⟨prepared.run, process.files⟩ labels scene
  served : ∃ environment, prepared.environment.Served labels environment

/-- What the process comes to, with all that has happened in its run: a fault before the run, or
what is concluded from a run that is over. -/
inductive Executes (process : Process) : List Label → Except Fatal RunReport → Prop where
  | unprepared {overrides : Overrides} {verbose : Bool} {fatal : Fatal}
      (parses : Invocation.ofArguments process.arguments = .run overrides verbose)
      (fails : process.prepare overrides = .error fatal) : Executes process [] (.error fatal)
  | finished {overrides : Overrides} {prepared : Prepared} {labels : List Label} {scene : Scene}
      (underway : process.Underway overrides prepared labels scene) (isOver : scene.Over) :
      Executes process labels (conclude scene.run.report?)

/-- How a process exits, with all that has happened in its run, if it came to one: by what it is
asked for instead of a run, or by what the run comes to. -/
inductive Exits (process : Process) : List Label → Nat → Prop where
  | aside {asked : Aside} (parses : Invocation.ofArguments process.arguments = .aside asked) :
      Exits process [] asked.status
  | executed {labels : List Label} {result : Except Fatal RunReport}
      (executes : process.Executes labels result) : Exits process labels (status result)

variable {labels : List Label} {scene : Scene}

/-- From wherever it has come to, a process can be led to its end. -/
theorem Underway.exists_executes (underway : process.Underway overrides prepared labels scene) :
    ∃ later result, process.Executes (labels ++ later) result := by
  obtain ⟨parses, prepares, trace, environment, served⟩ := underway
  obtain ⟨later, finish, after, rest, isOver, more⟩ := environment.exists_served_over scene
  exact ⟨later, _, .finished ⟨parses, prepares, trace.append rest, _, served.append more⟩ isOver⟩

/-- A process that is asked for a run can come to something. -/
theorem exists_executes {verbose : Bool}
    (parses : Invocation.ofArguments process.arguments = .run overrides verbose) :
    ∃ labels result, process.Executes labels result := by
  cases prepares : process.prepare overrides with
  | error fatal => exact ⟨[], _, .unprepared parses prepares⟩
  | ok prepared =>
      have begun : process.Underway overrides prepared [] ⟨prepared.run, process.files⟩ :=
        ⟨⟨verbose, parses⟩, prepares, .nil _, _, .nil _⟩
      obtain ⟨labels, result, executes⟩ := begun.exists_executes
      exact ⟨labels, result, executes⟩

end Process

end CommandLine

end FunctionBundler
