/-
Module: FunctionBundler.Proofs.Entry.Stages
Purpose: The stages of packaging, in their order, and what each of them asks.
Trusted boundary: none
Main exports:
  Build.Milestone, Build.Stage, Build.Journey, Build.trace_package_iff, Build.Asks,
  Build.Journey.asks, Build.Journey.of_isWrite, Build.asks_of_reaches
-/
import FunctionBundler.Entry.Packaging
import FunctionBundler.Proofs.Archive.Assembly
import FunctionBundler.Proofs.Fallible

namespace FunctionBundler.Build

/-!
Packaging goes from milestone to milestone.  A stage leads from one milestone to the
next, or fails; the first failure is the result, and nothing is asked after it.  Each
stage asks what it is there for and nothing else, and stages that the settings leave
out ask nothing.
-/

/-- How far packaging has come: nothing done yet, metadata decoded, executable checked, stripped if
asked for, libraries listed, those of the C library added if asked for, closure formed, archive
assembled, archive written. -/
inductive Milestone where
  | begun
  | decoded (parameters : Parameters)
  | checked (parameters : Parameters)
  | stripped (parameters : Parameters)
  | listed (parameters : Parameters) (loaded : LibrarySet)
  | gathered (parameters : Parameters) (libraries : LibrarySet)
  | closed (parameters : Parameters) (closure : Closure)
  | assembled (parameters : Parameters) (archive : Archive)
  | written (packaged : Packaged)

/-- Where the archive of an entry point is written: beside its executable. -/
abbrev archivePath (build : Build) (entry : EntryPoint) : Path :=
  Archive.pathFor (build.executable entry)

/-- The archive of an entry point is written. -/
def archiveWritten (build : Build) (entry : EntryPoint) (archive : Archive)
    (answer : Except FileError Unit) : Exchanged :=
  ⟨.access (.write (build.archivePath entry) archive.bytes), answer⟩

/-- What the stage after a milestone asks, with the answers, and the next milestone or the
failure. -/
inductive Stage (build : Build) (entry : EntryPoint) :
    Milestone → List Exchanged → Except Failure Milestone → Prop where
  | metadata :
      Stage build entry .begun [] ((entry.parameters.mapError .metadata).map .decoded)
  | executable {parameters : Parameters} (status : Except FileError FileStatus) :
      Stage build entry (.decoded parameters)
        [⟨.access (.inspect (build.executable entry)), status⟩]
        ((checkExecutable (build.executable entry) status).map fun _ => .checked parameters)
  | strip {parameters : Parameters} (wanted : build.settings.strip = true)
      (answer : Except Failure Unit) :
      Stage build entry (.checked parameters)
        [⟨.environment (.strip (build.executable entry)), answer⟩]
        (answer.map fun _ => .stripped parameters)
  | noStrip {parameters : Parameters} (unwanted : build.settings.strip = false) :
      Stage build entry (.checked parameters) [] (.ok (.stripped parameters))
  | dependencies {parameters : Parameters} (answer : Except Failure LibrarySet) :
      Stage build entry (.stripped parameters)
        [⟨.environment (.dependencies (build.executable entry)), answer⟩]
        (answer.map (.listed parameters))
  | base {parameters : Parameters} {loaded : LibrarySet}
      (wanted : build.settings.withLibc = true) (answer : Except Failure LibrarySet) :
      Stage build entry (.listed parameters loaded) [⟨.environment .baseLibraries, answer⟩]
        (answer.map fun base => .gathered parameters (Closure.merge loaded base))
  | noBase {parameters : Parameters} {loaded : LibrarySet}
      (unwanted : build.settings.withLibc = false) :
      Stage build entry (.listed parameters loaded) [] (.ok (.gathered parameters loaded))
  | loader {parameters : Parameters} {libraries : LibrarySet} :
      Stage build entry (.gathered parameters libraries) []
        ((Closure.ofLibraries libraries).map (.closed parameters))
  | assembly {parameters : Parameters} {closure : Closure} {readings : List Archive.Reading}
      {result : Except Failure Archive}
      (assembles : Archive.Assembles build.writer (build.executable entry) closure.libraries
        build.root build.settings.withLibc readings result) :
      Stage build entry (.closed parameters closure) (readings.map Archive.asked)
        (result.map (.assembled parameters))
  | writing {parameters : Parameters} {archive : Archive} (answer : Except FileError Unit) :
      Stage build entry (.assembled parameters archive) [build.archiveWritten entry archive answer]
        ((answer.mapError .io).map fun _ =>
          .written ⟨build.executable entry, archive, parameters⟩)

/-- The stages from a milestone on, up to the first failure, with everything that is asked. -/
inductive Journey (build : Build) (entry : EntryPoint) :
    Milestone → List Exchanged → Except Failure Packaged → Prop where
  | arrived (packaged : Packaged) : Journey build entry (.written packaged) [] (.ok packaged)
  | stopped {milestone : Milestone} {said : List Exchanged} {failure : Failure}
      (stage : Stage build entry milestone said (.error failure)) :
      Journey build entry milestone said (.error failure)
  | onward {milestone next : Milestone} {said later : List Exchanged}
      {result : Except Failure Packaged} (stage : Stage build entry milestone said (.ok next))
      (journey : Journey build entry next later result) :
      Journey build entry milestone (said ++ later) result

/-! ### Computations as stages -/

section

variable {build : Build} {entry : EntryPoint} {α : Type}

/-- A computation is the stage after a milestone; `reached` is the milestone after it. -/
def Performs (build : Build) (entry : EntryPoint) (milestone : Milestone) (work : Packing α)
    (reached : α → Milestone) : Prop :=
  ∀ said outcome, Stage build entry milestone said outcome ↔
    ∃ result, Program.Trace work.run said result ∧ outcome = result.map reached

/-- A computation is all that is left after a milestone. -/
def Completes (build : Build) (entry : EntryPoint) (milestone : Milestone)
    (rest : Packing Packaged) : Prop :=
  ∀ said result, Program.Trace rest.run said result ↔ Journey build entry milestone said result

private theorem completes_pure (packaged : Packaged) :
    Completes build entry (.written packaged) (pure packaged) := by
  intro said result
  rw [ExceptT.run_pure, Program.pure_eq, Program.trace_done_iff]
  constructor
  · intro ended
    obtain ⟨rfl, rfl⟩ := ended
    exact .arrived packaged
  · intro journey
    cases journey with
    | arrived => exact ⟨rfl, rfl⟩
    | stopped stage => cases stage
    | onward stage => cases stage

/-- A stage that is performed and then completed completes packaging. -/
theorem Performs.bind {milestone : Milestone} {work : Packing α} {reached : α → Milestone}
    {next : α → Packing Packaged} (performs : Performs build entry milestone work reached)
    (ahead : ∀ packaged, milestone ≠ .written packaged)
    (completes : ∀ value, Completes build entry (reached value) (next value)) :
    Completes build entry milestone (work >>= next) := by
  intro said result
  rw [Program.trace_run_bind_iff]
  constructor
  · intro parts
    rcases parts with ⟨failure, trace, rfl⟩ | ⟨before, value, after, rfl, first, second⟩
    · exact .stopped ((performs said _).mpr ⟨.error failure, trace, rfl⟩)
    · exact .onward ((performs before _).mpr ⟨.ok value, first, rfl⟩)
        ((completes value after result).mp second)
  · intro journey
    cases journey with
    | arrived packaged => exact absurd rfl (ahead packaged)
    | @stopped _ _ failure stage =>
        obtain ⟨found, trace, same⟩ := (performs said _).mp stage
        cases found with
        | error other =>
            cases same
            exact Or.inl ⟨failure, trace, rfl⟩
        | ok value => cases same
    | @onward _ milestone before after _ stage journey =>
        obtain ⟨found, trace, same⟩ := (performs before _).mp stage
        cases found with
        | error failure => cases same
        | ok value =>
            cases same
            exact Or.inr
              ⟨before, value, after, rfl, trace, (completes value after result).mpr journey⟩

private theorem trace_require_iff {ε : Type} {blame : ε → Failure} {given : Except ε α}
    {said : List Exchanged} {result : Except Failure α} :
    Program.Trace (Packing.require blame given).run said result ↔
      said = [] ∧ result = given.mapError blame := by
  cases given <;> exact Program.trace_done_iff

/-- Performing an operation asks for it once and returns the answer. -/
theorem trace_perform_iff {operation : Operation} {said : List Exchanged}
    {result : operation.Answer} :
    Program.Trace (Packing.perform operation).run said result ↔
      said = [⟨.environment operation, result⟩] :=
  Program.trace_query_iff

/-- Something is asked, and the answer is made a failure or not. -/
theorem trace_ask_require_iff {ε : Type} {request : Request} {blame : ε → Failure}
    {given : request.Answer → Except ε α} {said : List Exchanged} {result : Except Failure α} :
    Program.Trace (Packing.ask request >>= fun answer => Packing.require blame (given answer)).run
        said result ↔
      ∃ answer, said = [⟨request, answer⟩] ∧ result = (given answer).mapError blame := by
  rw [Packing.ask, ExceptT.run_bind_lift, Program.bind_eq, Talk.ask, Program.query,
    Program.bind_ask, Program.trace_ask_iff]
  constructor
  · intro parts
    obtain ⟨answer, later, rfl, trace⟩ := parts
    obtain ⟨rfl, rfl⟩ := trace_require_iff.mp trace
    exact ⟨answer, rfl, rfl⟩
  · intro parts
    obtain ⟨answer, rfl, rfl⟩ := parts
    exact ⟨answer, [], rfl, trace_require_iff.mpr ⟨rfl, rfl⟩⟩

private theorem performs_metadata :
    Performs build entry .begun (Packing.require .metadata entry.parameters) .decoded := by
  intro said outcome
  constructor
  · intro stage
    cases stage
    exact ⟨_, trace_require_iff.mpr ⟨rfl, rfl⟩, rfl⟩
  · intro parts
    obtain ⟨result, trace, rfl⟩ := parts
    obtain ⟨rfl, rfl⟩ := trace_require_iff.mp trace
    exact .metadata

private theorem performs_executable (parameters : Parameters) :
    Performs build entry (.decoded parameters)
      (Packing.ask (.access (.inspect (build.executable entry))) >>= fun status =>
        Packing.require id (checkExecutable (build.executable entry) status))
      fun _ => .checked parameters := by
  intro said outcome
  have mapError_id (given : Except Failure Unit) : given.mapError id = given := by
    cases given <;> rfl
  constructor
  · intro stage
    cases stage with
    | executable status =>
        exact ⟨_, trace_ask_require_iff.mpr ⟨status, rfl, (mapError_id _).symm⟩, rfl⟩
  · intro parts
    obtain ⟨result, trace, rfl⟩ := parts
    obtain ⟨status, rfl, rfl⟩ := trace_ask_require_iff.mp trace
    rw [mapError_id]
    exact .executable status

private theorem performs_strip (parameters : Parameters) (wanted : build.settings.strip = true) :
    Performs build entry (.checked parameters)
      (Packing.perform (.strip (build.executable entry))) fun _ => .stripped parameters := by
  intro said outcome
  constructor
  · intro stage
    cases stage with
    | strip wanted answer => exact ⟨answer, trace_perform_iff.mpr rfl, rfl⟩
    | noStrip unwanted => cases wanted.symm.trans unwanted
  · intro parts
    obtain ⟨result, trace, rfl⟩ := parts
    cases trace_perform_iff.mp trace
    exact .strip wanted result

private theorem performs_noStrip (parameters : Parameters)
    (unwanted : build.settings.strip = false) :
    Performs build entry (.checked parameters) (pure ()) fun _ => .stripped parameters := by
  intro said outcome
  constructor
  · intro stage
    cases stage with
    | strip wanted => cases wanted.symm.trans unwanted
    | noStrip => exact ⟨.ok (), Program.trace_done_iff.mpr ⟨rfl, rfl⟩, rfl⟩
  · intro parts
    obtain ⟨result, trace, rfl⟩ := parts
    obtain ⟨rfl, rfl⟩ := Program.trace_done_iff.mp trace
    exact .noStrip unwanted

private theorem performs_dependencies (parameters : Parameters) :
    Performs build entry (.stripped parameters)
      (Packing.perform (.dependencies (build.executable entry))) (.listed parameters) := by
  intro said outcome
  constructor
  · intro stage
    cases stage with
    | dependencies answer => exact ⟨answer, trace_perform_iff.mpr rfl, rfl⟩
  · intro parts
    obtain ⟨result, trace, rfl⟩ := parts
    cases trace_perform_iff.mp trace
    exact .dependencies result

private theorem performs_base (parameters : Parameters) (loaded : LibrarySet)
    (wanted : build.settings.withLibc = true) :
    Performs build entry (.listed parameters loaded) (Packing.perform .baseLibraries)
      fun base => .gathered parameters (Closure.merge loaded base) := by
  intro said outcome
  constructor
  · intro stage
    cases stage with
    | base wanted answer => exact ⟨answer, trace_perform_iff.mpr rfl, rfl⟩
    | noBase unwanted => cases wanted.symm.trans unwanted
  · intro parts
    obtain ⟨result, trace, rfl⟩ := parts
    cases trace_perform_iff.mp trace
    exact .base wanted result

private theorem performs_noBase (parameters : Parameters) (loaded : LibrarySet)
    (unwanted : build.settings.withLibc = false) :
    Performs build entry (.listed parameters loaded) (pure loaded) (.gathered parameters) := by
  intro said outcome
  constructor
  · intro stage
    cases stage with
    | base wanted => cases wanted.symm.trans unwanted
    | noBase => exact ⟨.ok loaded, Program.trace_done_iff.mpr ⟨rfl, rfl⟩, rfl⟩
  · intro parts
    obtain ⟨result, trace, rfl⟩ := parts
    obtain ⟨rfl, rfl⟩ := Program.trace_done_iff.mp trace
    exact .noBase unwanted

private theorem performs_loader (parameters : Parameters) (libraries : LibrarySet) :
    Performs build entry (.gathered parameters libraries)
      (ExceptT.mk (.done (Closure.ofLibraries libraries))) (.closed parameters) := by
  intro said outcome
  constructor
  · intro stage
    cases stage
    exact ⟨_, Program.trace_done_iff.mpr ⟨rfl, rfl⟩, rfl⟩
  · intro parts
    obtain ⟨result, trace, rfl⟩ := parts
    obtain ⟨rfl, rfl⟩ := Program.trace_done_iff.mp trace
    exact .loader

private theorem performs_assembly (parameters : Parameters) (closure : Closure) :
    Performs build entry (.closed parameters closure)
      (build.assemble (build.executable entry) closure) (.assembled parameters) := by
  intro said outcome
  constructor
  · intro stage
    cases stage with
    | assembly assembles =>
        exact ⟨_, Archive.trace_assemble_iff.mpr ⟨_, rfl, assembles⟩, rfl⟩
  · intro parts
    obtain ⟨result, trace, rfl⟩ := parts
    obtain ⟨readings, rfl, assembles⟩ := Archive.trace_assemble_iff.mp trace
    exact .assembly assembles

private theorem performs_writing (parameters : Parameters) (archive : Archive) :
    Performs build entry (.assembled parameters archive)
      (Packing.ask
          (.access (.write (Archive.pathFor (build.executable entry)) archive.bytes)) >>=
        fun written => Packing.require .io written)
      fun _ => .written ⟨build.executable entry, archive, parameters⟩ := by
  intro said outcome
  constructor
  · intro stage
    cases stage with
    | writing answer => exact ⟨_, trace_ask_require_iff.mpr ⟨answer, rfl, rfl⟩, rfl⟩
  · intro parts
    obtain ⟨result, trace, rfl⟩ := parts
    obtain ⟨answer, rfl, rfl⟩ := trace_ask_require_iff.mp trace
    exact .writing answer

/-! ### The whole way -/

/-- The closure of an executable that needs no C library, stage by stage. -/
theorem closure_of_noLibc (unwanted : build.settings.withLibc = false) (executable : Path) :
    build.closure executable =
      (Packing.perform (.dependencies executable) >>= fun loaded => pure loaded >>= fun libraries =>
        ExceptT.mk (.done (Closure.ofLibraries libraries))) := by
  rw [closure, Closure.resolve, unwanted]
  apply ExceptT.ext
  apply congrArg (Program.ask _)
  funext answer
  cases answer <;> rfl

/-- The closure of an executable with the C library, stage by stage. -/
theorem closure_of_libc (wanted : build.settings.withLibc = true) (executable : Path) :
    build.closure executable =
      (Packing.perform (.dependencies executable) >>= fun loaded =>
        Packing.perform .baseLibraries >>= fun base =>
          ExceptT.mk (.done (Closure.ofLibraries (Closure.merge loaded base)))) := by
  rw [closure, Closure.resolve, wanted]
  apply ExceptT.ext
  apply congrArg (Program.ask _)
  funext answer
  cases answer with
  | error failure => rfl
  | ok loaded =>
      apply congrArg (Program.ask _)
      funext answer
      cases answer <;> rfl

private theorem completes_closed (parameters : Parameters) (closure : Closure) :
    Completes build entry (.closed parameters closure) (do
      let archive ← build.assemble (build.executable entry) closure
      let written ← Packing.ask
        (.access (.write (Archive.pathFor (build.executable entry)) archive.bytes))
      Packing.require .io written
      return ⟨build.executable entry, archive, parameters⟩) := by
  apply (performs_assembly parameters closure).bind nofun
  intro archive
  rw [← bind_assoc]
  exact (performs_writing parameters archive).bind nofun fun _ => completes_pure _

private theorem completes_stripped (parameters : Parameters) {next : Closure → Packing Packaged}
    (completes : ∀ closure, Completes build entry (.closed parameters closure) (next closure)) :
    Completes build entry (.stripped parameters)
      (build.closure (build.executable entry) >>= next) := by
  cases libc : build.settings.withLibc with
  | false =>
      rw [closure_of_noLibc libc]
      simp only [bind_assoc]
      apply (performs_dependencies parameters).bind nofun
      intro loaded
      apply (performs_noBase parameters loaded libc).bind nofun
      intro libraries
      exact (performs_loader parameters libraries).bind nofun completes
  | true =>
      rw [closure_of_libc libc]
      simp only [bind_assoc]
      apply (performs_dependencies parameters).bind nofun
      intro loaded
      apply (performs_base parameters loaded libc).bind nofun
      intro base
      exact (performs_loader parameters _).bind nofun completes

private theorem completes_checked (parameters : Parameters) {rest : Packing Packaged}
    (completes : Completes build entry (.stripped parameters) rest) :
    Completes build entry (.checked parameters)
      (if build.settings.strip then
        Packing.perform (.strip (build.executable entry)) >>= fun _ => rest
      else rest) := by
  split
  case isTrue wanted => exact (performs_strip parameters wanted).bind nofun fun _ => completes
  case isFalse unwanted =>
      rw [← pure_bind () fun _ => rest]
      exact (performs_noStrip parameters (Bool.eq_false_iff.mpr unwanted)).bind nofun
        fun _ => completes

/-- Packaging asks what its stages ask, in their order, up to the first that fails. -/
theorem trace_package_iff {said : List Exchanged} {result : Except Failure Packaged} :
    Program.Trace (build.package entry).run said result ↔
      Journey build entry .begun said result := by
  have completes : Completes build entry .begun (build.package entry) := by
    apply performs_metadata.bind nofun
    intro parameters
    rw [← bind_assoc]
    apply (performs_executable parameters).bind nofun
    intro _
    apply completes_checked
    apply completes_stripped
    exact completes_closed parameters
  exact completes said result

/-- Packaging with malformed metadata fails before it asks for anything. -/
theorem trace_package_of_malformed {fault : Parameters.Fault}
    (malformed : entry.parameters = .error fault) :
    Program.Trace (build.package entry).run [] (.error (.metadata fault)) := by
  rw [package, malformed]
  exact .done _

/-! ### What is asked, and when -/

/-- A library that the environment has listed for an executable. -/
def Listed (build : Build) (entry : EntryPoint) (heard : List Exchanged) (library : LibraryPath) :
    Prop :=
  (∃ loaded : LibrarySet, library ∈ loaded ∧
    (⟨.environment (.dependencies (build.executable entry)), .ok loaded⟩ : Exchanged) ∈ heard) ∨
  (build.settings.withLibc = true ∧ ∃ base : LibrarySet, library ∈ base ∧
    (⟨.environment .baseLibraries, .ok base⟩ : Exchanged) ∈ heard)

/-- What packaging may ask for, when some libraries have been listed. -/
inductive Asks (build : Build) (entry : EntryPoint) (listed : LibraryPath → Prop) :
    Request → Prop where
  | inspect : Asks build entry listed (.access (.inspect (build.executable entry)))
  | strip (wanted : build.settings.strip = true) :
      Asks build entry listed (.environment (.strip (build.executable entry)))
  | dependencies : Asks build entry listed (.environment (.dependencies (build.executable entry)))
  | base (wanted : build.settings.withLibc = true) :
      Asks build entry listed (.environment .baseLibraries)
  | executable : Asks build entry listed (.access (.read (build.executable entry)))
  | library {library : LibraryPath} (isListed : listed library) :
      Asks build entry listed (.access (.read (Archive.source build.root library)))
  | write (content : Bytes) :
      Asks build entry listed
        (.access (.write (Archive.pathFor (build.executable entry)) content))

/-- What has been listed stays listed. -/
theorem Listed.append {heard : List Exchanged} {library : LibraryPath}
    (listed : Listed build entry heard library) (later : List Exchanged) :
    Listed build entry (heard ++ later) library := by
  rcases listed with ⟨loaded, member, answered⟩ | ⟨wanted, base, member, answered⟩
  · exact Or.inl ⟨loaded, member, List.mem_append_left later answered⟩
  · exact Or.inr ⟨wanted, base, member, List.mem_append_left later answered⟩

/-- The libraries that packaging knows of at a milestone. -/
def Milestone.libraries : Milestone → List LibraryPath
  | .listed _ libraries | .gathered _ libraries => libraries.paths
  | .closed _ closure => closure.libraries.paths
  | _ => []

/-- Packaging knows of no library that was not listed. -/
theorem Stage.listed {milestone next : Milestone} {heard said : List Exchanged}
    (stage : Stage build entry milestone said (.ok next))
    (known : ∀ library ∈ milestone.libraries, Listed build entry heard library) :
    ∀ library ∈ next.libraries, Listed build entry (heard ++ said) library := by
  generalize ended : (Except.ok next : Except Failure Milestone) = outcome at stage
  cases stage with
  | metadata | executable | strip | writing | assembly =>
      obtain ⟨_, -, rfl⟩ := exists_of_map_eq_ok ended
      exact List.forall_mem_nil _
  | noStrip =>
      cases ended
      exact List.forall_mem_nil _
  | dependencies answer =>
      obtain ⟨loaded, rfl, rfl⟩ := exists_of_map_eq_ok ended
      intro library member
      exact Or.inl ⟨loaded, member, List.mem_append_right _ List.mem_cons_self⟩
  | @base parameters loaded wanted answer =>
      obtain ⟨base, rfl, rfl⟩ := exists_of_map_eq_ok ended
      intro library member
      rcases LibrarySet.mem_insertAll.mp member with isLoaded | isBase
      · exact (known library isLoaded).append _
      · exact Or.inr ⟨wanted, base, (List.mem_filter.mp isBase).1,
          List.mem_append_right _ List.mem_cons_self⟩
  | noBase =>
      cases ended
      exact fun library member => (known library member).append _
  | @loader parameters libraries =>
      obtain ⟨closure, formed, rfl⟩ := exists_of_map_eq_ok ended
      obtain ⟨loader, -, rfl⟩ := exists_of_map_eq_ok formed.symm
      exact fun library member => (known library member).append _

/-- A stage asks for nothing but what its milestone allows. -/
theorem Stage.asks {milestone : Milestone} {heard said : List Exchanged}
    {outcome : Except Failure Milestone} (stage : Stage build entry milestone said outcome)
    (known : ∀ library ∈ milestone.libraries, Listed build entry heard library) :
    ∀ exchange ∈ said, Asks build entry (Listed build entry heard) exchange.1 := by
  cases stage with
  | metadata | noStrip | noBase | loader => exact List.forall_mem_nil _
  | executable status =>
      intro exchange member
      cases List.mem_singleton.mp member
      exact .inspect
  | strip wanted answer =>
      intro exchange member
      cases List.mem_singleton.mp member
      exact .strip wanted
  | dependencies answer =>
      intro exchange member
      cases List.mem_singleton.mp member
      exact .dependencies
  | base wanted answer =>
      intro exchange member
      cases List.mem_singleton.mp member
      exact .base wanted
  | @assembly parameters closure readings result assembles =>
      intro exchange member
      obtain ⟨reading, read, rfl⟩ := List.mem_map.mp member
      rcases assembles.path_mem reading read with same | ⟨library, isListed, same⟩
      · change Asks build entry _ (.access (.read reading.1))
        rw [same]
        exact .executable
      · change Asks build entry _ (.access (.read reading.1))
        rw [same]
        exact .library (known library isListed)
  | @writing parameters archive answer =>
      intro exchange member
      cases List.mem_singleton.mp member
      exact .write archive.bytes

/-- What may be asked for may be when more libraries are listed. -/
theorem Asks.mono {listed other : LibraryPath → Prop} {request : Request}
    (asks : Asks build entry listed request)
    (more : ∀ library, listed library → other library) : Asks build entry other request := by
  cases asks with
  | inspect => exact .inspect
  | strip wanted => exact .strip wanted
  | dependencies => exact .dependencies
  | base wanted => exact .base wanted
  | executable => exact .executable
  | library isListed => exact .library (more _ isListed)
  | write content => exact .write content

/-- Packaging asks only for what was listed before. -/
theorem Journey.asks {milestone : Milestone} {heard said before after : List Exchanged}
    {exchange : Exchanged} {result : Except Failure Packaged}
    (journey : Journey build entry milestone said result)
    (known : ∀ library ∈ milestone.libraries, Listed build entry heard library)
    (cut : said = before ++ exchange :: after) :
    Asks build entry (Listed build entry (heard ++ before)) exchange.1 := by
  induction journey generalizing heard before with
  | arrived => simp at cut
  | stopped stage =>
      have member : exchange ∈ before ++ exchange :: after :=
        List.mem_append_right before List.mem_cons_self
      rw [← cut] at member
      exact (stage.asks known exchange member).mono fun library listed => listed.append before
  | @onward milestone next said later result stage _ ih =>
      rcases List.append_eq_append_iff.mp cut with ⟨more, rfl, inRest⟩ | ⟨more, rfl, inStage⟩
      · have asks := ih (stage.listed known) inRest
        rwa [List.append_assoc] at asks
      · cases more with
        | nil =>
            rw [List.append_nil] at stage
            have asks := @ih (heard ++ before) [] (stage.listed known) inStage.symm
            rwa [List.append_nil] at asks
        | cons first rest =>
            rw [List.cons_append, List.cons.injEq] at inStage
            obtain ⟨rfl, rfl⟩ := inStage
            have member : exchange ∈ before ++ exchange :: rest :=
              List.mem_append_right before List.mem_cons_self
            exact (stage.asks known exchange member).mono fun library listed => listed.append before

/-- Something that was written, or not. -/
def IsWrite (exchange : Exchanged) : Prop :=
  ∃ path content, exchange.1 = .access (.write path content)

/-- Only the last stage writes, and it does nothing else. -/
theorem Stage.of_isWrite {milestone : Milestone} {said : List Exchanged} {exchange : Exchanged}
    {outcome : Except Failure Milestone} (stage : Stage build entry milestone said outcome)
    (member : exchange ∈ said) (isWrite : IsWrite exchange) :
    ∃ parameters archive, ∃ answer : Except FileError Unit,
      said = [build.archiveWritten entry archive answer] ∧
      outcome = (answer.mapError .io).map fun _ =>
        .written ⟨build.executable entry, archive, parameters⟩ := by
  obtain ⟨path, content, written⟩ := isWrite
  cases stage with
  | metadata | noStrip | noBase | loader => cases member
  | executable | strip | dependencies | base =>
      rw [List.mem_singleton.mp member] at written
      cases written
  | assembly =>
      obtain ⟨reading, -, rfl⟩ := List.mem_map.mp member
      cases written
  | @writing parameters archive answer => exact ⟨parameters, archive, answer, rfl, rfl⟩

/-- Nothing follows when the archive is written. -/
theorem Journey.of_written {packaged : Packaged} {said : List Exchanged}
    {result : Except Failure Packaged}
    (journey : Journey build entry (.written packaged) said result) :
    said = [] ∧ result = .ok packaged := by
  cases journey with
  | arrived => exact ⟨rfl, rfl⟩
  | stopped stage => cases stage
  | onward stage => cases stage

/-- The archive is written after everything else, and then packaging ends as the write did. -/
theorem Journey.of_isWrite {milestone : Milestone} {said : List Exchanged} {exchange : Exchanged}
    {result : Except Failure Packaged} (journey : Journey build entry milestone said result)
    (member : exchange ∈ said) (isWrite : IsWrite exchange) :
    ∃ before parameters archive, ∃ answer : Except FileError Unit,
      said = before ++ [build.archiveWritten entry archive answer] ∧
      (∀ earlier ∈ before, ¬IsWrite earlier) ∧
      result = (answer.mapError .io).map fun _ =>
        ⟨build.executable entry, archive, parameters⟩ := by
  induction journey with
  | arrived => cases member
  | stopped stage =>
      obtain ⟨parameters, archive, answer, only, outcome⟩ := stage.of_isWrite member isWrite
      refine ⟨[], parameters, archive, answer, only, List.forall_mem_nil _, ?_⟩
      cases answer with
      | error fault =>
          cases outcome
          rfl
      | ok => cases outcome
  | @onward milestone next said later result stage journey ih =>
      have writes {other : Exchanged} (inStage : other ∈ said) (isWrite : IsWrite other) :
          ∃ parameters archive,
            said = [build.archiveWritten entry archive (.ok ())] ∧
            later = [] ∧ result = .ok ⟨build.executable entry, archive, parameters⟩ := by
        obtain ⟨parameters, archive, answer, only, outcome⟩ := stage.of_isWrite inStage isWrite
        cases answer with
        | error fault => cases outcome
        | ok =>
            cases outcome
            obtain ⟨rfl, rfl⟩ := journey.of_written
            exact ⟨parameters, archive, only, rfl, rfl⟩
      rcases List.mem_append.mp member with inStage | inRest
      · obtain ⟨parameters, archive, rfl, rfl, rfl⟩ := writes inStage isWrite
        exact ⟨[], parameters, archive, .ok (), rfl, List.forall_mem_nil _, rfl⟩
      · obtain ⟨before, parameters, archive, answer, rfl, unwritten, outcome⟩ := ih inRest
        refine ⟨said ++ before, parameters, archive, answer, (List.append_assoc _ _ _).symm, ?_,
          outcome⟩
        intro earlier member isWrite
        rcases List.mem_append.mp member with inStage | inBefore
        · obtain ⟨-, -, -, none, -⟩ := writes inStage isWrite
          simp at none
        · exact unwritten earlier inBefore isWrite

/-! ### On the way -/

instance (request : Request) : Nonempty request.Answer :=
  match request with
  | .access (.present _) => ⟨true⟩
  | .access (.inspect _) | .access (.read _) | .access (.write _ _) => ⟨.error .notFound⟩
  | .environment _ => ⟨.error .notStarted⟩
  | .announce _ | .sleep _ => ⟨()⟩
  | .call _ => ⟨.error (.timedOut ⟨""⟩ 0)⟩
  | .clock => ⟨(0 : Nat)⟩

/-- As long as packaging asks, it has written nothing, and it asks for what was listed before. -/
theorem asks_of_reaches {said : List Exchanged} {request : Request}
    {resume : request.Answer → Talk (Except Failure Packaged)}
    (reaches : Program.Reaches (build.package entry).run said (.ask request resume)) :
    Asks build entry (Listed build entry said) request ∧ ∀ earlier ∈ said, ¬IsWrite earlier := by
  obtain ⟨answer⟩ := (inferInstance : Nonempty request.Answer)
  obtain ⟨later, result, rest⟩ := Program.exists_trace (resume answer)
  have journey := trace_package_iff.mp (reaches.trace_append (.ask answer rest))
  have known : ∀ library ∈ Milestone.begun.libraries, Listed build entry [] library :=
    List.forall_mem_nil _
  refine ⟨journey.asks known rfl, fun earlier member isWrite => ?_⟩
  obtain ⟨before, parameters, archive, written, cut, unwritten, -⟩ :=
    journey.of_isWrite (List.mem_append_left _ member) isWrite
  have shorter := congrArg List.dropLast cut
  rw [List.dropLast_concat, List.dropLast_append_of_ne_nil (List.cons_ne_nil _ _)] at shorter
  apply unwritten earlier _ isWrite
  rw [← shorter]
  exact List.mem_append_left _ member

end

end FunctionBundler.Build
