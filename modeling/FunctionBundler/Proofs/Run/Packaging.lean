/-
Module: FunctionBundler.Proofs.Run.Packaging
Purpose: How packaging an entry point ends in a run, and what it leaves behind.
Trusted boundary: none
Main exports:
  Scene.Course.of_panicked, Fared, Scene.Course.fared, Scene.trace_packaging
-/
import FunctionBundler.Proofs.Entry.Metadata
import FunctionBundler.Proofs.Run.Changes
import FunctionBundler.Proofs.Run.Lifecycle

namespace FunctionBundler

/-!
An entry point fares in one of four ways: a stage of packaging fails, or the
environment panics in one, or the archive is written and what follows leads to an
outcome, or the platform panics after that.  The first two leave no trace outside
the environment.  In the others the archive was written as the last thing that
packaging did, and it is what the outcome is about.
-/

/-! ### Panics -/

namespace Scene

/-- Only the environment and the platform panic. -/
theorem panicking_of_step {scene next : Scene} {actor : Actor} {request : Request}
    {cause : String} (step : scene.Step (.exchange actor request (.panicked cause)) next) :
    (∃ operation, request = .environment operation) ∨ ∃ call, request = .call call := by
  generalize asked : Label.exchange actor request (.panicked cause) = label at step
  cases step with
  | moved => cases asked
  | @exchange _ made resume reply files turn reacts =>
      cases asked
      generalize given : Reply.panicked cause = reply at reacts
      cases reacts with
      | strip | environment => exact Or.inl ⟨_, rfl⟩
      | call => exact Or.inr ⟨_, rfl⟩
      | access | announce | clock | sleep => cases given

/-- A task that was ended by a panic has no turn any more. -/
theorem Course.silent_of_aborted {keeps : Scene → Label → Scene → Prop} {first last : Scene}
    {labels : List Label} {index : Nat} {cause : String} (course : Course keeps first labels last)
    (aborted : first.run.pool.slots[index]? = some (.aborted cause)) :
    last.run.pool.slots[index]? = some (.aborted cause) ∧
      ∀ label ∈ labels, label.actor ≠ .entry index := by
  induction course with
  | nil => exact ⟨aborted, List.forall_mem_nil _⟩
  | @concat labels middle last label course step _ ih =>
      obtain ⟨still, silent⟩ := ih
      have turn {other : Nat} {pool : Pool EntryTask}
          {asked : Option ((request : Request) × Reply request.Answer)}
          (takes : middle.run.pool.Takes other asked pool) :
          other ≠ index ∧ pool.slots[index]? = some (.aborted cause) := by
        have differs : other ≠ index := by
          rintro rfl
          obtain ⟨state, slot, active, -⟩ := takes.does
          cases still.symm.trans active
        exact ⟨differs, (takes.getElem?_ne differs).trans still⟩
      cases moves_of_step step with
      | conductor conducts =>
          refine ⟨still, forall_mem_concat silent ?_⟩
          rw [conducts.actor_eq]
          exact nofun
      | moved _ takes | exchange _ takes =>
          obtain ⟨differs, after⟩ := turn takes
          refine ⟨after, forall_mem_concat silent fun same => differs ?_⟩
          cases same
          rfl

end Scene

/-- Where no label is a task's, it hears nothing. -/
theorem heard_eq_nil {index : Nat} {labels : List Label}
    (others : ∀ label ∈ labels, label.actor ≠ .entry index) : heard index labels = [] := by
  rw [heard, List.filterMap_eq_nil_iff]
  intro label member
  have other := others label member
  rcases label with _ | ⟨_ | made, _, _ | _⟩
  case exchange.entry.answered => exact if_neg fun same => other (congrArg Actor.entry same)
  all_goals rfl

namespace Scene

variable {build : Build} {permits : Nat} {entries : List EntryPoint} {files : Files}
  {keeps : Scene → Label → Scene → Prop} {labels : List Label} {last : Scene}

/-- A task is ended by one panic at most, after what it has heard, and asks nothing after it. -/
theorem Course.of_panicked
    (course : Course keeps (start build permits entries files) labels last) {index : Nat}
    {request : Request} {cause : String}
    (panicked : Label.exchange (.entry index) request (.panicked cause) ∈ labels) :
    ((∃ operation, request = .environment operation) ∨ ∃ call, request = .call call) ∧
      (∃ entry, entries[index]? = some entry ∧
        EntryTask.Wants build entry (heard index labels) request) ∧
      ∀ other again, Label.exchange (.entry index) other (.panicked again) ∈ labels →
        other = request ∧ again = cause := by
  obtain ⟨before, after, rfl⟩ := List.append_of_mem panicked
  obtain ⟨middle, next, early, step, -, since⟩ := course.split_at
  obtain ⟨takes, -⟩ := takes_of_step step
  obtain ⟨entry, there, wants, unharmed⟩ := early.wants_of_takes takes
  obtain ⟨state, slot, -, stands, does⟩ := takes.does
  have aborted : next.run.pool.slots[index]? = some (.aborted cause) := by
    cases does with
    | panicked => exact stands
  have silent := (since.silent_of_aborted aborted).2
  have whole : heard index
      (before ++ .exchange (.entry index) request (.panicked cause) :: after) =
        heard index before := by
    rw [List.append_cons, heard_append, heard_append, heard_eq_nil silent]
    exact List.append_nil _ |>.trans (List.append_nil _)
  refine ⟨panicking_of_step step, ⟨entry, there, ?_⟩, fun other again also => ?_⟩
  · rwa [whole]
  · rcases List.mem_append.mp also with inBefore | later
    · exact absurd ⟨other, again, inBefore⟩ unharmed
    · rcases List.mem_cons.mp later with same | inAfter
      · cases same
        exact ⟨rfl, rfl⟩
      · exact absurd rfl (silent _ inAfter)

end Scene

/-! ### How an entry point fares -/

/-- What follows when an archive is written, and the outcome: its path and size are told, or it is
handed over to a deployment, which succeeds or fails. -/
inductive Delivers (build : Build) (entry : EntryPoint) (packaged : Packaged) :
    List Exchanged → Outcome → Prop where
  | kept (stays : build.deployment? packaged = none) :
      Delivers build entry packaged []
        (.packaged (Archive.pathFor packaged.executable) packaged.archive.size)
  | deployed {deployment : Deployment} {spoken : List Exchanged} {last : Reconciliation}
      {report : DeployReport} (deploys : build.deployment? packaged = some deployment)
      (same : deployment.archive = packaged.archive)
      (runs : Task.Runs (Reconciliation.start deployment) spoken last)
      (ended : Task.step last = .ended (.ok report)) :
      Delivers build entry packaged
        (told (.deploying entry.fileName deployment.function) :: spoken)
        (.deployed report.function report.actions)
  | notDeployed {deployment : Deployment} {spoken : List Exchanged} {last : Reconciliation}
      {failure : DeployFailure} (deploys : build.deployment? packaged = some deployment)
      (same : deployment.archive = packaged.archive)
      (runs : Task.Runs (Reconciliation.start deployment) spoken last)
      (ended : Task.step last = .ended (.error failure)) :
      Delivers build entry packaged
        (told (.deploying entry.fileName deployment.function) :: spoken)
        (.deployFailed deployment.function failure)

/-- The archive that is told of is the one that was packaged. -/
theorem Delivers.of_packaged {build : Build} {entry : EntryPoint} {packaged : Packaged}
    {later : List Exchanged} {path : Path} {size : Nat}
    (delivers : Delivers build entry packaged later (.packaged path size)) :
    path = Archive.pathFor packaged.executable ∧ size = packaged.archive.size := by
  cases delivers with
  | kept => exact ⟨rfl, rfl⟩

/-- How an entry point has fared in a run: a stage of packaging failed; the environment panicked
when packaging asked it; the archive was written and delivered; or the platform panicked after it
was written. -/
inductive Fared (build : Build) (entry : EntryPoint) (index : Nat) (labels : List Label) :
    Outcome → Prop where
  | failed {said : List Exchanged} {failure : Failure} (unharmed : ¬Panics index labels)
      (journey : build.Journey entry .begun said (.error failure))
      (whole : heard index labels = told (.packaging entry.fileName) :: said ++
        [told ((Outcome.failed failure).event entry.fileName)]) :
      Fared build entry index labels (.failed failure)
  | panicked {said : List Exchanged} {operation : Operation} {cause : String}
      {resume : operation.Answer → Talk (Except Failure Packaged)}
      (panicked : Label.exchange (.entry index) (.environment operation) (.panicked cause) ∈ labels)
      (reaches : Program.Reaches (build.package entry).run said
        (.ask (.environment operation) resume))
      (whole : heard index labels = told (.packaging entry.fileName) :: said) :
      Fared build entry index labels (.aborted cause)
  | delivered {said later : List Exchanged} {packaged : Packaged} {outcome : Outcome}
      (unharmed : ¬Panics index labels)
      (journey : build.Journey entry .begun said (.ok packaged))
      (delivers : Delivers build entry packaged later outcome)
      (whole : heard index labels = told (.packaging entry.fileName) :: said ++ later ++
        [told (outcome.event entry.fileName)]) :
      Fared build entry index labels outcome
  | lost {said later : List Exchanged} {packaged : Packaged} {call : RemoteCall} {cause : String}
      (panicked : Label.exchange (.entry index) (.call call) (.panicked cause) ∈ labels)
      (journey : build.Journey entry .begun said (.ok packaged))
      (whole : heard index labels = told (.packaging entry.fileName) :: said ++ later) :
      Fared build entry index labels (.aborted cause)

/-- The deployment of a packaged entry point ships its archive. -/
theorem Build.archive_of_deployment? {build : Build} {packaged : Packaged} {deployment : Deployment}
    (deploys : build.deployment? packaged = some deployment) :
    deployment.archive = packaged.archive := by
  rw [Build.deployment?] at deploys
  obtain ⟨options, -, deploys⟩ := Option.bind_eq_some_iff.mp deploys
  obtain ⟨deploy, -, deploys⟩ := Option.bind_eq_some_iff.mp deploys
  cases deploys
  rfl

/-- A whole life of a task that no panic has ended. -/
theorem Fared.of_account {build : Build} {entry : EntryPoint} {index : Nat} {labels : List Label}
    {outcome : Outcome} (unharmed : ¬Panics index labels)
    (account : EntryTask.Account build entry (heard index labels) outcome) :
    Fared build entry index labels outcome := by
  generalize whole : heard index labels = said at account
  cases account with
  | mk lived =>
      cases lived with
      | failed packaging =>
          exact .failed unharmed (Build.trace_package_iff.mp packaging) whole
      | packaged packaging stays =>
          refine .delivered unharmed (Build.trace_package_iff.mp packaging) (.kept stays) ?_
          rw [whole, List.append_nil]
      | deployed packaging deploys runs ended =>
          exact .delivered unharmed (Build.trace_package_iff.mp packaging)
            (.deployed deploys (Build.archive_of_deployment? deploys) runs ended) whole
      | deployFailed packaging deploys runs ended =>
          exact .delivered unharmed (Build.trace_package_iff.mp packaging)
            (.notDeployed deploys (Build.archive_of_deployment? deploys) runs ended) whole

namespace Scene

variable {build : Build} {permits : Nat} {entries : List EntryPoint} {files : Files}
  {keeps : Scene → Label → Scene → Prop} {labels : List Label} {last : Scene}

/-- How an entry point fared, by the outcome that its task ended with. -/
theorem Course.fared (course : Course keeps (start build permits entries files) labels last)
    {index : Nat} {entry : EntryPoint} {outcome : Outcome} (there : entries[index]? = some entry)
    (ends : Ends build entry index labels outcome) : Fared build entry index labels outcome := by
  cases ends with
  | account account unharmed => exact .of_account unharmed account
  | @panicked request cause panicked =>
      obtain ⟨panicking, ⟨entry', there', wants⟩, -⟩ := course.of_panicked panicked
      cases there.symm.trans there'
      generalize whole : heard index labels = said at wants
      cases wants with
      | tells => rcases panicking with ⟨_, same⟩ | ⟨_, same⟩ <;> cases same
      | packages reaches =>
          rcases panicking with ⟨operation, rfl⟩ | ⟨call, rfl⟩
          · exact .panicked panicked reaches whole
          · cases (Build.asks_of_reaches reaches).1
      | reconciles packaging _ _ asks =>
          rcases Reconciliation.asks_remotely asks with ⟨call, rfl⟩ | rfl | ⟨_, rfl⟩
          · exact .lost panicked (Build.trace_package_iff.mp packaging) whole
          · rcases panicking with ⟨_, same⟩ | ⟨_, same⟩ <;> cases same
          · rcases panicking with ⟨_, same⟩ | ⟨_, same⟩ <;> cases same

end Scene

/-! ### What is left behind -/

/-- The platform or the object store is called under a label. -/
def Label.Calls : Label → Prop
  | .exchange _ (.call _) _ => True
  | _ => False

private theorem Label.Calls.exists_call {label : Label} (calls : label.Calls) :
    ∃ actor call reply, label = .exchange actor (.call call) reply := by
  rw [Label.Calls.eq_def] at calls
  split at calls
  case h_1 actor call reply => exact ⟨actor, call, reply, rfl⟩
  case h_2 => cases calls

/-- An exchange in which nothing is called and nothing is written. -/
structure Traceless (exchange : Exchanged) : Prop where
  uncalled : ∀ call, exchange.1 ≠ .call call
  unwritten : ∀ path content, exchange ≠ ⟨.access (.write path content), .ok ()⟩

private theorem traceless_told (event : Event) : Traceless (told event) :=
  ⟨nofun, nofun⟩

/-- Packaging calls no platform. -/
theorem Build.Asks.uncalled {build : Build} {entry : EntryPoint} {listed : LibraryPath → Prop}
    {request : Request} (asks : build.Asks entry listed request) (call : RemoteCall) :
    request ≠ .call call := by
  rintro rfl
  cases asks

/-- A failure of packaging, or a panic of the environment, comes before anything is left behind. -/
theorem Fared.traceless {build : Build} {entry : EntryPoint} {index : Nat} {labels : List Label}
    {outcome : Outcome} (fared : Fared build entry index labels outcome)
    (early : (∃ failure, outcome = .failed failure) ∨
      ∃ operation cause,
        Label.exchange (.entry index) (.environment operation) (.panicked cause) ∈ labels)
    (once : ∀ one other cause again,
      Label.exchange (.entry index) one (.panicked cause) ∈ labels →
        Label.exchange (.entry index) other (.panicked again) ∈ labels → one = other) :
    (∀ exchange ∈ heard index labels, Traceless exchange) ∧
      ∀ call cause, Label.exchange (.entry index) (.call call) (.panicked cause) ∉ labels := by
  cases fared with
  | @failed said failure unharmed journey whole =>
      refine ⟨fun exchange member => ?_, fun call cause panicked => unharmed ⟨_, _, panicked⟩⟩
      rw [whole] at member
      rcases List.mem_append.mp member with inWork | atEnd
      · rcases List.mem_cons.mp inWork with rfl | inPackaging
        · exact traceless_told _
        · obtain ⟨listed, asks⟩ := journey.asks_of_mem inPackaging
          refine ⟨asks.uncalled, fun path content same => ?_⟩
          rw [same] at inPackaging
          exact journey.unwritten_of_error path content inPackaging
      · rw [List.mem_singleton.mp atEnd]
        exact traceless_told _
  | @panicked said operation cause resume panicked reaches whole =>
      refine ⟨fun exchange member => ?_, fun call again also => nomatch once _ _ _ _ panicked also⟩
      rw [whole] at member
      rcases List.mem_cons.mp member with rfl | inPackaging
      · exact traceless_told _
      · obtain ⟨later, result, trace⟩ := reaches.exists_trace
        have journey := Build.trace_package_iff.mp trace
        obtain ⟨listed, asks⟩ := journey.asks_of_mem (List.mem_append_left later inPackaging)
        refine ⟨asks.uncalled, fun path content same => ?_⟩
        apply (Build.asks_of_reaches reaches).2 exchange inPackaging
        rw [same]
        exact ⟨path, content, rfl⟩
  | delivered unharmed journey delivers whole =>
      rcases early with ⟨failure, rfl⟩ | ⟨operation, cause, panicked⟩
      · cases delivers
      · exact absurd ⟨_, _, panicked⟩ unharmed
  | lost panicked journey whole =>
      rcases early with ⟨failure, same⟩ | ⟨operation, cause, also⟩
      · cases same
      · exact nomatch once _ _ _ _ panicked also

namespace Scene

variable {build : Build} {permits : Nat} {entries : List EntryPoint} {files : Files}
  {labels : List Label} {last : Scene}

private theorem of_traceless {index : Nat}
    (heardNothing : ∀ exchange ∈ heard index labels, Traceless exchange) (uncalled : ∀ call cause,
      Label.exchange (.entry index) (.call call) (.panicked cause) ∉ labels) :
    ∀ label ∈ labels, label.actor = .entry index → ¬label.Writes ∧ ¬label.Calls := by
  intro label member own
  refine ⟨fun writes => ?_, fun calls => ?_⟩
  · refine unwritten_of_heard (fun path content written => ?_) label member writes own
    exact (heardNothing _ written).unwritten path content rfl
  · obtain ⟨actor, call, reply, rfl⟩ := calls.exists_call
    cases own
    cases reply with
    | answered answer => exact (heardNothing _ (mem_heard_iff.mpr member)).uncalled call rfl
    | panicked cause => exact uncalled call cause member

/-- Packaging an entry point goes through its stages in their order, up to the first that fails,
whose failure is the outcome.  An entry point that failed so, or in a panic of the environment, was
not deployed and, without stripping, has left all files as they were.  Otherwise the file at the
path of its archive, if no other entry point shares it, is the archive that was told of or
deployed. -/
theorem trace_packaging {results : List (EntryPoint × Outcome)} {index : Nat} {entry : EntryPoint}
    {outcome : Outcome} (trace : Scene.Trace (start build permits entries files) labels last)
    (ended : last.run.results? = some results) (result : results[index]? = some (entry, outcome)) :
    (∀ said result, Program.Trace (build.package entry).run said result ↔
        build.Journey entry .begun said result) ∧
      Fared build entry index labels outcome ∧
      (((∃ failure, outcome = .failed failure) ∨
          ∃ operation cause,
            Label.exchange (.entry index) (.environment operation) (.panicked cause) ∈ labels) →
        (∀ label ∈ labels, label.actor = .entry index → ¬label.Calls) ∧
          (build.settings.strip = false →
            Course (Spares index) (start build permits entries files) labels last)) ∧
      (outcome.isFailure = false → Unshared build entries files index entry →
        (build.settings.strip = true →
          Course (Under StripsInPlace) (start build permits entries files) labels last) →
        ∃ said later packaged, build.Journey entry .begun said (.ok packaged) ∧
          heard index labels = told (.packaging entry.fileName) :: said ++ later ++
            [told (outcome.event entry.fileName)] ∧
          Delivers build entry packaged later outcome ∧
          last.files.read (build.archivePath entry) = .ok packaged.archive.bytes ∧
          packaged.archive.digest = Sha256.digest packaged.archive.bytes) := by
  have course := course_of_trace trace
  obtain ⟨there, ends⟩ := (course.of_results? ended).2 index entry outcome result
  have fared := course.fared there ends
  refine ⟨fun _ _ => Build.trace_package_iff, fared, fun early => ?_,
    fun succeeded unshared inPlace => ?_⟩
  · obtain ⟨traceless, uncalled⟩ := fared.traceless early fun one other cause again panicked also =>
      ((course.of_panicked panicked).2.2 other again also).1.symm
    have leaves := of_traceless traceless uncalled
    exact ⟨fun label member own => (leaves label member own).2, fun noStrip =>
      course.spares noStrip fun label member writes own => (leaves label member own).1 writes⟩
  · have stripped :
        Course (Under StripsInPlace) (start build permits entries files) labels last := by
      cases wanted : build.settings.strip with
      | true => exact inPlace wanted
      | false => exact course.inPlace wanted
    cases fared with
    | failed | panicked | lost => cases succeeded
    | @delivered said later packaged _ unharmed journey delivers whole =>
        obtain ⟨before, cut, -, executable⟩ := journey.of_ok nofun
        have written :
            build.archiveWritten entry packaged.archive (.ok ()) ∈ heard index labels := by
          rw [whole, cut]
          simp
        exact ⟨said, later, packaged, journey, whole, delivers,
          stripped.read_archive unshared (mem_heard_iff.mp written), journey.isSealed trivial⟩

/-- Two entry points whose executables are stripped and whose archives are kept. -/
theorem trace_packaging_kept :
    let parameters : Parameters := ⟨"f", 128, 3, 512⟩
    let build : Build := ⟨⟨⟨"/p/app"⟩, ⟨"/p/app.json"⟩, "app", none, ⟨"/p"⟩, none, none, false,
      .x86_64, true, none⟩, none, none, .standard⟩
    let entry (name : String) : EntryPoint :=
      ⟨name, Base64.encode (Codec.encode parameters.toValue), none⟩
    let entries := [entry "a", entry "b"]
    let files : Files := ⟨[], [(["p"], .directory), (["p", "a"], .file [1]),
      (["p", "b"], .file [2]), (["p", "ld-1"], .file [3])]⟩
    ∃ labels last path path' content content',
      Scene.Trace (start build 2 entries files) labels last ∧
      last.run.results? = some [(entry "a", .packaged path content.length),
        (entry "b", .packaged path' content'.length)] ∧
      last.files.read (build.archivePath (entry "a")) = .ok content ∧
      last.files.read (build.archivePath (entry "b")) = .ok content' := by
  intro parameters build entry entries files
  let answers := FixedAnswers.listing fun _ => .answered (.ok (.ofList [.ofPath ⟨"/p/ld-1"⟩]))
  have known (name : String) : (entry name).parameters = .ok parameters :=
    EntryPoint.parameters_toValue _ _ ⟨by decide, by decide, by decide⟩ (by decide)
  have first : (build.packagedAlone answers files (entry "a")).map
      (Except.map Packaged.parameters) = .ok (.ok parameters) := by
    rw [Build.packagedAlone, Build.package, known]
    decide +kernel
  let after := build.filesAfter answers files (entry "a") ["p", "a.zip"]
  have second : (build.packagedAlone answers after (entry "b")).map
      (Except.map Packaged.parameters) = .ok (.ok parameters) := by
    rw [Build.packagedAlone, Build.package, known]
    decide +kernel
  have lies : files.target (build.archivePath (entry "a")) = .ok ["p", "a.zip"] := by
    decide +kernel
  have lies' : files.target (build.archivePath (entry "b")) = .ok ["p", "b.zip"] := by
    decide +kernel
  have stands : files.target (build.executable (entry "a")) = .ok ["p", "a"] := by decide +kernel
  have stands' : files.target (build.executable (entry "b")) = .ok ["p", "b"] := by decide +kernel
  obtain ⟨packaged, alone, -⟩ := Build.exists_packaged_of_map first
  obtain ⟨packaged', alone', -⟩ := Build.exists_packaged_of_map second
  obtain ⟨said, middle, packaging, replies, place, stores, changed⟩ :=
    exists_answers_of_packagedAlone alone
  rw [changed, put_eq_filesAfter alone stores lies] at replies
  obtain ⟨said', finish, packaging', replies', -⟩ := exists_answers_of_packagedAlone alone'
  have smooth : (Settled answers).Smooth (.ok ()) :=
    ⟨fun _ _ => trivial, fun _ => ⟨rfl, rfl⟩, fun _ => ⟨rfl, rfl⟩⟩
  obtain ⟨labels, last, course, -, ended, -, -⟩ := exists_course_of_succession smooth
    (fun _ => rfl) (.cons packaging replies (.cons packaging' replies' (.nil finish))) 2
  have unshared : Unshared build entries files 0 (entry "a") := by
    rintro (_ | _ | other) entry' differs there
    · exact absurd rfl differs
    · cases there
      exact ⟨Files.not_samePlace lies lies' (by decide), fun _ =>
        Files.not_samePlace lies stands' (by decide)⟩
    · cases there
  have unshared' : Unshared build entries files 1 (entry "b") := by
    rintro (_ | _ | other) entry' differs there
    · cases there
      exact ⟨Files.not_samePlace lies' lies (by decide), fun _ =>
        Files.not_samePlace lies' stands (by decide)⟩
    · exact absurd rfl differs
    · cases there
  obtain ⟨said, later, written, -, -, delivers, found, -⟩ :=
    (@trace_packaging build 2 entries files labels last _ 0 (entry "a") _ course.trace ended
      rfl).2.2.2 rfl unshared fun _ => course.inPlace_of_settled
  obtain ⟨said', later', written', -, -, delivers', found', -⟩ :=
    (@trace_packaging build 2 entries files labels last _ 1 (entry "b") _ course.trace ended
      rfl).2.2.2 rfl unshared' fun _ => course.inPlace_of_settled
  rw [Outcome.ofPackaging, Outcome.ofPackaging, delivers.of_packaged.2,
    delivers'.of_packaged.2] at ended
  exact ⟨labels, last, _, _, _, _, course.trace, ended, found, found'⟩

end Scene

end FunctionBundler
