/-
Module: FunctionBundler.Proofs.CommandLine.Status
Purpose: What the exit status of the program says, and what its summary counts.
Trusted boundary: none
Main exports:
  ArchiveWritten, Scene.Course.hasFailures_eq_false_iff, Outcome.Kind, Tally.count_ofOutcomes,
  CommandLine.Process.Accomplished, CommandLine.Process.executes_status,
  CommandLine.Process.exists_exits_otherwise
-/
import FunctionBundler.Proofs.CommandLine.Process
import FunctionBundler.Proofs.Run.Packaging

namespace FunctionBundler

/-!
The exit status is read off the report of a run, or off the fault that stood in for one.
A report without failures means that packaging each entry point came to its archive being
written, and that nobody panicked.  In a process only calls to the platform can panic, so
apart from them the status is zero exactly if everything was done, whatever deployments
came to.  The summary counts each outcome of the report under its kind.
-/

/-! ### A run without failures -/

/-- Packaging an entry point succeeded, and its archive was written. -/
def ArchiveWritten (build : Build) (entry : EntryPoint) (index : Nat) (labels : List Label) :
    Prop :=
  ∃ said later packaged, heard index labels = told (.packaging entry.fileName) :: said ++ later ∧
    Program.Trace (build.package entry).run said (.ok packaged) ∧
    Label.exchange (.entry index)
      (.access (.write (build.archivePath entry) packaged.archive.bytes)) (.answered (.ok ())) ∈
        labels

/-- What packaging came to is read off what the task has heard. -/
theorem ArchiveWritten.not_packagingFailed {build : Build} {entry : EntryPoint} {index : Nat}
    {labels : List Label} (written : ArchiveWritten build entry index labels) :
    ¬PackagingFailed build entry (heard index labels) := by
  rintro ⟨said', later', failure, whole', fails⟩
  obtain ⟨said, later, packaged, whole, succeeds, -⟩ := written
  have same := whole.symm.trans whole'
  rw [List.cons_append, List.cons_append, List.cons.injEq] at same
  cases (succeeds.unique fails same.2).2

namespace Scene

variable {build : Build} {permits : Nat} {entries : List EntryPoint} {files : Files}
  {keeps : Scene → Label → Scene → Prop} {labels : List Label} {last : Scene}

/-- An entry point that did not end in failure has its archive written. -/
theorem Course.archiveWritten
    (course : Course keeps (start build permits entries files) labels last) {index : Nat}
    {entry : EntryPoint} {outcome : Outcome} (there : entries[index]? = some entry)
    (ends : Ends build entry index labels outcome) (succeeded : outcome.isFailure = false) :
    ArchiveWritten build entry index labels := by
  cases course.fared there ends with
  | failed | panicked | lost => cases succeeded
  | @delivered said later packaged _ _ journey _ whole =>
      refine ⟨said, later ++ [told (outcome.event entry.fileName)], packaged, ?_,
        Build.trace_package_iff.mpr journey, mem_heard_iff.mp ?_⟩
      · rw [whole, List.append_assoc]
      · rw [whole, List.append_assoc]
        exact List.mem_append_left _ (List.mem_cons_of_mem _ (journey.archiveWritten_mem nofun))

/-- A report is without failures if every archive was written and nobody panicked. -/
theorem Course.hasFailures_eq_false_iff
    (course : Course keeps (start build permits entries files) labels last) {report : RunReport}
    (ended : last.run.results? = some report.results) :
    report.hasFailures = false ↔
      (∀ index entry, entries[index]? = some entry → ArchiveWritten build entry index labels) ∧
        ∀ index, ¬Panics index labels := by
  rw [← Bool.not_eq_true, course.hasFailures_iff ended]
  constructor
  · intro flawless
    have calm (index : Nat) : ¬Panics index labels := by
      rintro ⟨request, cause, panicked⟩
      obtain ⟨-, ⟨entry, there, -⟩, -⟩ := course.of_panicked panicked
      exact flawless ⟨index, entry, there, Or.inr ⟨request, cause, panicked⟩⟩
    refine ⟨fun index entry there => ?_, calm⟩
    obtain ⟨inOrder, ends⟩ := course.of_results? ended
    have found := there
    rw [← inOrder, List.getElem?_map] at found
    obtain ⟨⟨_, outcome⟩, result, rfl⟩ := Option.map_eq_some_iff.mp found
    have own := (ends index _ outcome result).2
    refine course.archiveWritten there own (Bool.eq_false_iff.mpr fun failed => ?_)
    exact flawless ⟨index, _, there, own.isFailure_iff.mp failed⟩
  · rintro ⟨written, calm⟩ ⟨index, entry, there, failed | panics⟩
    · exact (written index entry there).not_packagingFailed failed
    · exact calm index panics

end Scene

private theorem Run.results?_of_report? {run : Run} {report : RunReport}
    (returns : run.report? = some (.ok report)) : run.results? = some report.results := by
  rw [Run.report?] at returns
  split at returns
  case h_1 | h_3 => cases returns
  case h_2 =>
      obtain ⟨results, ended, same⟩ := Option.map_eq_some_iff.mp returns
      cases same
      exact ended

/-! ### What the summary counts -/

/-- The kinds of outcomes that a summary tells apart. -/
inductive Outcome.Kind where
  | packaged
  | deployed
  | deployFailed
  | failed
deriving DecidableEq

/-- The kind of an outcome. -/
def Outcome.kind : Outcome → Kind
  | .packaged _ _ => .packaged
  | .deployed _ _ => .deployed
  | .deployFailed _ _ => .deployFailed
  | .failed _ | .aborted _ => .failed

private theorem Outcome.isFailure_iff_kind (outcome : Outcome) :
    outcome.isFailure = true ↔ outcome.kind = .failed := by
  cases outcome <;> simp [Outcome.isFailure, Outcome.kind]

namespace Tally

/-- The number of outcomes of a kind. -/
def count (tally : Tally) : Outcome.Kind → Nat
  | .packaged => tally.packaged
  | .deployed => tally.deployed
  | .deployFailed => tally.deployFailed
  | .failed => tally.failed

/-- A tally counts each outcome under its kind. -/
theorem count_ofOutcomes (outcomes : List Outcome) (kind : Outcome.Kind) :
    (ofOutcomes outcomes).count kind = outcomes.countP fun outcome => outcome.kind = kind := by
  induction outcomes with
  | nil => cases kind <;> rfl
  | cons outcome rest ih =>
      rw [List.countP_cons, ← ih]
      cases outcome <;> cases kind <;> rfl

/-- Every outcome is counted once. -/
theorem sum_ofOutcomes (outcomes : List Outcome) :
    (ofOutcomes outcomes).packaged + (ofOutcomes outcomes).deployed +
      (ofOutcomes outcomes).deployFailed + (ofOutcomes outcomes).failed = outcomes.length := by
  induction outcomes with
  | nil => rfl
  | cons outcome rest ih =>
      rw [List.length_cons, ← ih]
      cases outcome <;> simp only [ofOutcomes, List.foldr_cons] <;> omega

/-- The line that ends a summary. -/
def line (tally : Tally) (entries elapsed : Nat) : ConsoleLine :=
  .output s!"  {entries} entry points ({tally.text}) in {secondsText elapsed}"

end Tally

/-- The tally of a report. -/
def RunReport.tally (report : RunReport) : Tally :=
  .ofOutcomes (report.results.map Prod.snd)

/-- The summary ends with the tally of the report. -/
theorem RunReport.exists_summary_eq (report : RunReport) (times : Nat → Nat) (elapsed : Nat) :
    ∃ shown, report.summary times elapsed = shown ++
      [report.tally.line report.results.length elapsed] := by
  rw [RunReport.summary, List.append_cons, List.map_append]
  exact ⟨_, rfl⟩

/-- Whether packaging failed is all that the status of a report depends on. -/
theorem RunReport.hasFailures_congr {report other : RunReport}
    (alike : List.Forall₂ (fun one two => one.2.kind = .failed ↔ two.2.kind = .failed)
      report.results other.results) : report.hasFailures = other.hasFailures := by
  rw [RunReport.hasFailures, RunReport.hasFailures]
  generalize report.results = results at alike ⊢
  generalize other.results = others at alike ⊢
  induction alike with
  | nil => rfl
  | cons same _ ih =>
      rw [List.any_cons, List.any_cons, ih]
      congr 1
      rw [Bool.eq_iff_iff, Outcome.isFailure_iff_kind, Outcome.isFailure_iff_kind, same]

namespace CommandLine

/-! ### What the status says -/

/-- No call to the platform panicked. -/
def Unbroken (labels : List Label) : Prop :=
  ∀ index call cause, Label.exchange (.entry index) (.call call) (.panicked cause) ∉ labels

namespace Process

/-- All that a process is for was done: the settings resolved, the manifest was read and parsed, an
environment was selected and started, and every entry point was packaged with its archive
written. -/
structure Accomplished (process : Process) (overrides : Overrides) (prepared : Prepared)
    (labels : List Label) : Prop where
  prepares : process.Prepares overrides prepared
  starts : startLabel (.answered (.ok ())) ∈ labels
  packages : ∀ index entry, prepared.manifest.entries[index]? = some entry →
    ArchiveWritten prepared.build entry index labels

/-- A deployment is to make more calls at once than can be counted; setting it up panics. -/
def Overcommits (process : Process) (overrides : Overrides) : Prop :=
  ∃ prepared deploy, process.Prepares overrides prepared ∧
    prepared.settings.deploy = some deploy ∧ Pool.capacity < deploy.maxInflight

variable {process : Process} {overrides : Overrides} {prepared : Prepared} {labels : List Label}
  {scene : Scene} {result : Except Fatal RunReport} {verbose : Bool}

private theorem prepare_eq_uncountable_iff_overcommits :
    process.prepare overrides = .error .uncountable ↔ process.Overcommits overrides := by
  rw [prepare_eq_uncountable_iff]
  constructor
  · rintro ⟨prepared, prepares, uncountable⟩
    rw [Prepared.permits] at uncountable
    cases deploys : prepared.settings.deploy with
    | none =>
        rw [deploys] at uncountable
        exact absurd uncountable (by decide)
    | some deploy =>
        rw [deploys] at uncountable
        exact ⟨prepared, deploy, prepares, deploys, uncountable⟩
  · rintro ⟨prepared, deploy, prepares, deploys, uncountable⟩
    refine ⟨prepared, prepares, ?_⟩
    rw [Prepared.permits, deploys]
    exact uncountable

/-- The run of a process is a course of a run. -/
theorem Underway.course (underway : process.Underway overrides prepared labels scene) :
    Scene.Course (fun _ _ _ => True) (Scene.start prepared.build prepared.permits
      prepared.manifest.entries process.files) labels scene :=
  Scene.course_of_trace underway.trace

/-- In the run of a process, only calls panic. -/
theorem Underway.unbroken_iff (underway : process.Underway overrides prepared labels scene) :
    Unbroken labels ↔ ∀ index, ¬Panics index labels := by
  obtain ⟨environment, served⟩ := underway.served
  constructor
  · rintro unbroken index ⟨request, cause, panicked⟩
    rcases (underway.course.of_panicked panicked).1 with ⟨operation, rfl⟩ | ⟨call, rfl⟩
    · exact served.unpanicked _ _ _ panicked
    · exact unbroken index call cause panicked
  · intro calm index call cause panicked
    exact calm index ⟨_, _, panicked⟩

/-- The status of a run that is over. -/
theorem Underway.status_eq_zero_iff (underway : process.Underway overrides prepared labels scene)
    (isOver : scene.Over) :
    status (conclude scene.run.report?) = 0 ↔
      process.Accomplished overrides prepared labels ∧ Unbroken labels := by
  have prepares := (prepare_eq_ok_iff.mp underway.prepares).1
  cases underway.course.concluded isOver with
  | startCrashed whole =>
      obtain ⟨environment, served⟩ := underway.served
      rw [whole] at served
      exact absurd List.mem_cons_self (served.unpanicked .conductor .start _)
  | stopCrashed whole =>
      obtain ⟨environment, served⟩ := underway.served
      rw [whole] at served
      exact absurd (List.mem_append_right _ List.mem_cons_self)
        (served.unpanicked .conductor .stop _)
  | refused whole tells returns =>
      rw [returns, conclude]
      refine ⟨nofun, fun done => ?_⟩
      have starts := done.1.starts
      rw [whole] at starts
      exact absurd starts (startLabel_not_mem_of_refused tells)
  | @reported _ _ _ _ report whole _ _ _ returns =>
      have ended := Run.results?_of_report? returns
      have starts : startLabel (.answered (.ok ())) ∈ labels := by
        rw [whole]
        exact List.mem_cons_self
      have flawless := underway.course.hasFailures_eq_false_iff ended
      rw [← underway.unbroken_iff] at flawless
      have status_eq : status (conclude scene.run.report?) = 0 ↔ report.hasFailures = false := by
        rw [returns, conclude, status]
        cases report.hasFailures <;> decide
      rw [status_eq, flawless]
      exact ⟨fun ⟨packages, unbroken⟩ => ⟨⟨prepares, starts, packages⟩, unbroken⟩,
        fun ⟨done, unbroken⟩ => ⟨done.packages, unbroken⟩⟩

/-- A report has an outcome for each entry point of the manifest, which is how its task ended; what
is shown in the end counts them by their kinds, and the status depends on nothing but which of them
failed to be packaged. -/
structure Counted (prepared : Prepared) (labels : List Label) (report : RunReport) : Prop where
  inOrder : report.results.map Prod.fst = prepared.manifest.entries
  ends : ∀ index entry outcome, report.results[index]? = some (entry, outcome) →
    Ends prepared.build entry index labels outcome
  counts : ∀ kind, report.tally.count kind =
    report.results.countP fun result => result.2.kind = kind
  sum : report.tally.packaged + report.tally.deployed + report.tally.deployFailed +
    report.tally.failed = prepared.manifest.entries.length
  shown : ∀ times elapsed, ∃ before, closing times elapsed (.ok report) =
    before ++ [report.tally.line prepared.manifest.entries.length elapsed]
  indifferent : ∀ other : RunReport,
    List.Forall₂ (fun one two => one.2.kind = .failed ↔ two.2.kind = .failed)
      report.results other.results → status (.ok other) = status (.ok report)

/-- The report of a process counts its outcomes. -/
theorem Underway.counted (underway : process.Underway overrides prepared labels scene)
    {report : RunReport} (returns : scene.run.report? = some (.ok report)) :
    Counted prepared labels report := by
  obtain ⟨inOrder, ends⟩ := underway.course.of_results? (Run.results?_of_report? returns)
  have length : report.results.length = prepared.manifest.entries.length := by
    rw [← inOrder, List.length_map]
  refine ⟨inOrder, fun index entry outcome there => (ends index entry outcome there).2,
    fun kind => ?_, ?_, fun times elapsed => ?_, fun other alike => ?_⟩
  · rw [RunReport.tally, Tally.count_ofOutcomes, List.countP_map]
    rfl
  · rw [RunReport.tally, Tally.sum_ofOutcomes, List.length_map, length]
  · rw [← length]
    exact report.exists_summary_eq times elapsed
  · rw [status, status, RunReport.hasFailures_congr alike]

/-- What the exit status of a process says. -/
structure Tells (process : Process) (overrides : Overrides) (labels : List Label)
    (result : Except Fatal RunReport) : Prop where
  zero : status result = 0 ↔
    (∃ prepared, process.Accomplished overrides prepared labels) ∧ Unbroken labels
  else_one : ¬process.Overcommits overrides → status result ≠ 0 → status result = 1
  counted : ∀ report, result = .ok report →
    ∃ prepared, process.Prepares overrides prepared ∧ Counted prepared labels report

private theorem status_eq_one {fatal : Fatal} (other : fatal ≠ .uncountable) :
    status (.error fatal) = 1 := by
  cases fatal with
  | uncountable => exact absurd rfl other
  | configuration | manifest | engine | start => rfl

private theorem tells_of_unprepared {fatal : Fatal}
    (fails : process.prepare overrides = .error fatal) :
    process.Tells overrides [] (.error fatal) := by
  refine ⟨⟨fun done => ?_, fun done => ?_⟩, fun countable _ => ?_, nofun⟩
  · cases fatal <;> cases done
  · obtain ⟨⟨_, accomplished⟩, -⟩ := done
    cases accomplished.starts
  · apply status_eq_one
    rintro rfl
    exact countable (prepare_eq_uncountable_iff_overcommits.mp fails)

private theorem status_conclude (returned : Option (Except Failure RunReport)) :
    status (conclude returned) = 0 ∨ status (conclude returned) = 1 := by
  rcases returned with _ | _ | report
  · exact Or.inr rfl
  · exact Or.inr rfl
  · rw [conclude, status]
    cases report.hasFailures
    · exact Or.inl rfl
    · exact Or.inr rfl

/-- The status of a run that is over says what has been done. -/
theorem Underway.tells (underway : process.Underway overrides prepared labels scene)
    (isOver : scene.Over) : process.Tells overrides labels (conclude scene.run.report?) := by
  have prepares := (prepare_eq_ok_iff.mp underway.prepares).1
  refine ⟨?_, fun _ failed => (status_conclude scene.run.report?).resolve_left failed,
    fun report returns => ⟨prepared, prepares, underway.counted ?_⟩⟩
  · rw [underway.status_eq_zero_iff isOver]
    constructor
    · rintro ⟨accomplished, unbroken⟩
      exact ⟨⟨prepared, accomplished⟩, unbroken⟩
    · rintro ⟨⟨other, accomplished⟩, unbroken⟩
      cases accomplished.prepares.unique prepares
      exact ⟨accomplished, unbroken⟩
  · cases returned : scene.run.report? with
    | none =>
        rw [returned] at returns
        cases returns
    | some ended =>
        rw [returned] at returns
        cases ended with
        | error => cases returns
        | ok =>
            cases returns
            rfl

/-- A process that is asked for a run exits with the status of what it comes to. -/
theorem exits_iff {code : Nat}
    (parses : Invocation.ofArguments process.arguments = .run overrides verbose) :
    process.Exits labels code ↔
      ∃ result, process.Executes labels result ∧ status result = code := by
  constructor
  · intro exits
    cases exits with
    | aside parses' => cases parses.symm.trans parses'
    | executed executes => exact ⟨_, executes, rfl⟩
  · rintro ⟨result, executes, rfl⟩
    exact .executed executes

/-- What a process that is asked for a run comes to. -/
theorem Executes.tells (executes : process.Executes labels result)
    (parses : Invocation.ofArguments process.arguments = .run overrides verbose) :
    process.Tells overrides labels result := by
  cases executes with
  | unprepared parses' fails =>
      cases parses.symm.trans parses'
      exact tells_of_unprepared fails
  | finished underway isOver =>
      obtain ⟨_, parses'⟩ := underway.parses
      cases parses.symm.trans parses'
      exact underway.tells isOver

/-- Whatever the variables, the files and the environment are, a process that is asked for a run can
be led to its exit from wherever it has come to, and does come to it, unless its run is told for
ever that a function is not stable.  Its exit status is zero exactly if all that it is for was done
and no call to the platform panicked, and it is one otherwise, unless setting up the deployment
panicked.  The summary counts the entry points of the manifest by how they ended, and how
deployments ended does not change the status. -/
theorem executes_status (process : Process)
    (parses : Invocation.ofArguments process.arguments = .run overrides verbose) :
    (∃ labels code, process.Exits labels code) ∧
      (∀ prepared labels scene, process.Underway overrides prepared labels scene →
        (∃ later code, process.Exits (labels ++ later) code) ∧
          ∀ (scenes : Nat → Scene) (turns : Nat → Label), scenes 0 = scene →
            (∀ turn, (scenes turn).Step (turns turn) (scenes (turn + 1))) →
              ∀ since, ∃ turn, since ≤ turn ∧ (turns turn).Stalls) ∧
      (∀ labels code, process.Exits labels code ↔
        ∃ result, process.Executes labels result ∧ status result = code) ∧
      ∀ labels result, process.Executes labels result → process.Tells overrides labels result := by
  refine ⟨?_, fun _ _ _ underway => ⟨?_, fun _ _ _ steps => Scene.exists_stalls steps⟩,
    fun _ _ => exits_iff parses, fun _ _ executes => executes.tells parses⟩
  · obtain ⟨labels, result, executes⟩ := exists_executes parses
    exact ⟨labels, _, .executed executes⟩
  · obtain ⟨later, result, executes⟩ := underway.exists_executes
    exact ⟨later, _, .executed executes⟩

/-- One entry point is packaged, and the metadata of the other is malformed. -/
theorem executes_status_malformed :
    let tools : (query : Environment.Query) → query.Answer
      | .present _ | .installed _ => false
      | .run program _ =>
        if program = "ldd" then .ok "\t/p/ld-1 (0x1)\n" else .error .notStarted
      | .launch .. | .execute .. | .remove _ => .error .notStarted
    let metadata := "BAAAAAQCAAAACmlkZW50aWZpZXICAAAAAWYCAAAABm1lbW9yeQEAAAAAAAAAgAIAAAAH" ++
      "dGltZW91dAEAAAAAAAAAAwIAAAARZXBoZW1lcmFsX3N0b3JhZ2UBAAAAAAAAAgA="
    let text := "\x7b\"entry_points\":[\x7b\"filename\":\"a\",\"user_meta\":\"" ++ metadata ++
      "\"\x7d,\x7b\"filename\":\"b\",\"user_meta\":\"\"\x7d]\x7d"
    let files : Files := ⟨[], [(["p"], .directory), (["p", "app.json"], .file (Bytes.ofText text)),
      (["p", "a"], .file [1]), (["p", "b"], .file [2]), (["p", "ld-1"], .file [3])]⟩
    let process : Process :=
      ⟨.x86_64, ["--no-libc", "/p/app"], fun _ => none, ⟨"/"⟩, none, files, tools⟩
    ∃ labels report path size failure, process.Executes labels (.ok report) ∧
      report.results.map Prod.snd = [.packaged path size, .failed failure] ∧
      process.Exits labels 1 ∧ report.tally.packaged = 1 ∧ report.tally.failed = 1 := by
  intro tools metadata text files process
  let overrides : Overrides := { Overrides.ofBinary ⟨"/p/app"⟩ with withoutLibc := true }
  have parses : Invocation.ofArguments process.arguments = .run overrides false := by rfl
  let parameters : Parameters := ⟨"f", 128, 3, 512⟩
  let packaged : EntryPoint := ⟨"a", metadata, none⟩
  let malformed : EntryPoint := ⟨"b", "", none⟩
  let prepared : Prepared := ⟨⟨⟨"/p/app"⟩, ⟨"/p/app.json"⟩, "app", none, ⟨"/p"⟩, none, none, false,
    .x86_64, false, none⟩, ⟨[packaged, malformed]⟩, .native none⟩
  have content : process.files.readText ⟨"/p/app.json"⟩ = .ok text := by
    have read : files.read ⟨"/p/app.json"⟩ = .ok (Bytes.ofText text) := rfl
    exact Files.readText_of_read read
  have prepares : process.Prepares overrides prepared :=
    ⟨by decide +kernel, ⟨text, content, by decide +kernel⟩, rfl⟩
  have ready : process.prepare overrides = .ok prepared :=
    prepare_eq_ok_iff.mpr ⟨prepares, by decide⟩
  let answers : FixedAnswers := fun operation =>
    .answered (Program.resultOn tools ((Environment.native none).perform operation)).2
  have performs (operation : Operation) : ∃ said reply, answers operation = .answered reply ∧
      Program.Trace ((Environment.native none).perform operation) said (.native none, reply) := by
    obtain ⟨said, reply, answered, trace⟩ := Environment.exists_trace_native none tools operation
    exact ⟨said, reply, congrArg (fun result => Reply.answered result.2) answered, trace⟩
  have spelled : metadata = Base64.encode (Codec.encode parameters.toValue) := by decide +kernel
  have known : packaged.parameters = .ok parameters := by
    change EntryPoint.parameters ⟨"a", metadata, none⟩ = _
    rw [spelled]
    exact EntryPoint.parameters_toValue _ _ ⟨by decide, by decide, by decide⟩ (by decide)
  have alone : (prepared.build.packagedAlone answers files packaged).map
      (Except.map Packaged.executable) = .ok (.ok ⟨"/p/a"⟩) := by
    rw [Build.packagedAlone, Build.package, known]
    decide +kernel
  have unreadable : malformed.parameters.isOk = false := by decide +kernel
  obtain ⟨fault, unreadable⟩ := exists_eq_error_of_isOk unreadable
  obtain ⟨written, succeeds, -⟩ := Build.exists_packaged_of_map alone
  obtain ⟨said, last, trace, replies, -⟩ := exists_answers_of_packagedAlone succeeds
  have smooth : (Settled answers).Smooth (.ok ()) :=
    ⟨fun _ _ => trivial, fun _ => ⟨rfl, rfl⟩, fun _ => ⟨rfl, rfl⟩⟩
  obtain ⟨labels, finish, course, isOver, -, returns, -⟩ :=
    Scene.exists_course_of_succession smooth (fun _ => rfl)
      (.cons trace replies
        (.cons (Build.trace_package_of_malformed unreadable) (.nil _) (.nil _))) prepared.permits
  have underway : process.Underway overrides prepared labels finish :=
    ⟨⟨false, parses⟩, ready, course.trace, _, Environment.served_of_settled performs course⟩
  let report : RunReport :=
    ⟨[(packaged, .ofPackaging (.ok written)), (malformed, .ofPackaging (.error (.metadata fault)))]⟩
  have executes : process.Executes labels (.ok report) := by
    have executes := Executes.finished underway isOver
    rw [returns] at executes
    exact executes
  obtain ⟨-, -, exits_iff, tells⟩ := executes_status process parses
  have told := tells labels _ executes
  obtain ⟨_, _, counted⟩ := told.counted report rfl
  have countable : ¬process.Overcommits overrides := by
    rintro ⟨other, deploy, prepares', deploys, -⟩
    cases prepares.unique prepares'
    cases deploys
  have failed : status (.ok report) = 1 := told.else_one countable Nat.one_ne_zero
  exact ⟨labels, report, _, _, _, executes, rfl, (exits_iff labels 1).mpr ⟨_, executes, failed⟩,
    counted.counts .packaged, counted.counts .failed⟩

/-- A process that is asked for its version exits with status zero, though nothing was prepared.
One that is to deploy with more calls at once than can be counted exits with a status that is
neither zero nor one, though no call panicked. -/
theorem exists_exits_otherwise :
    let tools : (query : Environment.Query) → query.Answer
      | .present _ | .installed _ => false
      | .run .. | .launch .. | .execute .. | .remove _ => .error .notStarted
    let text := "\x7b\"entry_points\":[]\x7d"
    let files : Files :=
      ⟨[], [(["p"], .directory), (["p", "app.json"], .file (Bytes.ofText text))]⟩
    let process (arguments : List String) : Process :=
      ⟨.x86_64, arguments, fun _ => none, ⟨"/"⟩, none, files, tools⟩
    let version := process ["--version"]
    let overcommitted := process ["/p/app", "--deploy", "--region", "here", "--role", "role",
      "--max-inflight", "2305843009213693952"]
    (Invocation.ofArguments version.arguments = .aside .version ∧ version.Exits [] 0 ∧
        ∀ overrides prepared, ¬version.Accomplished overrides prepared []) ∧
      (∃ overrides, Invocation.ofArguments overcommitted.arguments = .run overrides false) ∧
      overcommitted.Exits [] 101 ∧ Unbroken [] := by
  intro tools text files process version overcommitted
  have asks : Invocation.ofArguments version.arguments = .aside .version := by rfl
  let overrides : Overrides := { Overrides.ofBinary ⟨"/p/app"⟩ with
    deploy := true
    region := some "here"
    roleArn := some "role"
    maxInflight := some (Nat.pow 2 61) }
  have parses : Invocation.ofArguments overcommitted.arguments = .run overrides false := by rfl
  let deploy : DeploySettings :=
    ⟨"here", "role", none, none, none, "provided.al2", 300, Nat.pow 2 61, false⟩
  let prepared : Prepared := ⟨⟨⟨"/p/app"⟩, ⟨"/p/app.json"⟩, "app", none, ⟨"/p"⟩, none, none, true,
    .x86_64, false, some deploy⟩, ⟨[]⟩, .native none⟩
  have content : files.readText ⟨"/p/app.json"⟩ = .ok text := by
    have read : files.read ⟨"/p/app.json"⟩ = .ok (Bytes.ofText text) := rfl
    exact Files.readText_of_read read
  have prepares : overcommitted.Prepares overrides prepared :=
    ⟨by decide +kernel, ⟨text, content, by decide +kernel⟩, rfl⟩
  have fails : overcommitted.prepare overrides = .error .uncountable :=
    prepare_eq_uncountable_iff_overcommits.mpr ⟨prepared, deploy, prepares, rfl, by decide +kernel⟩
  refine ⟨⟨asks, .aside asks, fun _ _ done => nomatch done.starts⟩, ⟨overrides, parses⟩,
    .executed (.unprepared parses fails), fun _ _ _ => List.not_mem_nil⟩

end Process

end CommandLine

end FunctionBundler
