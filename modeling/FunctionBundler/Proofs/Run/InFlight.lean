/-
Module: FunctionBundler.Proofs.Run.InFlight
Purpose: Which changes of one function can come one after the other in a run.
Trusted boundary: none
Main exports:
  Build.functionOf?, EntryTask.calm_of_wants, Scene.Course.of_change,
  Scene.trace_changes_in_turn, Scene.OneInFlight, Scene.exists_not_oneInFlight
-/
import FunctionBundler.Proofs.Deploy.InFlight
import FunctionBundler.Proofs.Deploy.Reconcile
import FunctionBundler.Proofs.Run.Packaging
import FunctionBundler.Proofs.Run.Succession

namespace FunctionBundler

/-!
A task changes the function that its own metadata names, and each of its changes waits
until the one before has taken effect.  Tasks do not know of each other, so this keeps
changes of one function apart only where its name belongs to one entry point.  Two entry
points with the same parameters have one name between them; then the change of one task
can come while that of the other is in flight.
-/

/-- The function that an entry point is deployed as, if its metadata can be read. -/
def Build.functionOf? (build : Build) (entry : EntryPoint) : Option FunctionName :=
  entry.parameters.toOption.map (FunctionName.compute build.settings.targetName)

private theorem Build.function_of_deployment? {build : Build} {packaged : Packaged}
    {deployment : Deployment} (deploys : build.deployment? packaged = some deployment) :
    deployment.function = .compute build.settings.targetName packaged.parameters := by
  rw [Build.deployment?] at deploys
  obtain ⟨options, -, deploys⟩ := Option.bind_eq_some_iff.mp deploys
  obtain ⟨deploy, -, deploys⟩ := Option.bind_eq_some_iff.mp deploys
  cases deploys
  rfl

private theorem not_mutates_told (event : Event) : ¬Mutates (told event) := by
  rintro ⟨call, same, -⟩
  cases same

/-- Packaging changes no function. -/
theorem Build.Journey.not_mutates {build : Build} {entry : EntryPoint} {said : List Exchanged}
    {result : Except Failure Packaged} (journey : Journey build entry .begun said result) :
    ∀ exchange ∈ said, ¬Mutates exchange := by
  rintro exchange member ⟨call, same, -⟩
  obtain ⟨listed, asks⟩ := journey.asks_of_mem member
  exact asks.uncalled call same

/-- A task that changes a function changes that of its entry point, and only if this was found
stable since the task's last change. -/
theorem EntryTask.calm_of_wants {build : Build} {entry : EntryPoint} {said : List Exchanged}
    {call : RemoteCall} (wants : Wants build entry said (.call call))
    (changes : call.isMutation = true) :
    ∃ function, build.functionOf? entry = some function ∧ call.function? = some function ∧
      Calm function said := by
  generalize wanted : Request.call call = request at wants
  cases wants with
  | tells => cases wanted
  | packages reaches => exact absurd wanted.symm ((Build.asks_of_reaches reaches).1.uncalled call)
  | @reconciles said spoken packaged deployment reconciliation _ _ packaging deploys runs asks =>
      subst wanted
      have journey := Build.trace_package_iff.mp packaging
      obtain ⟨names, calm⟩ := Reconciliation.calm_of_asks runs asks changes
      refine ⟨deployment.function, ?_, names, ?_⟩
      · rw [Build.functionOf?, journey.parameters_eq trivial,
          Build.function_of_deployment? deploys]
        rfl
      · rw [List.append_cons]
        apply calm.append_left
        intro exchange member
        rcases List.mem_append.mp member with early | last
        · rcases List.mem_cons.mp early with rfl | inPackaging
          · exact not_mutates_told _
          · exact journey.not_mutates exchange inPackaging
        · rw [List.mem_singleton.mp last]
          exact not_mutates_told _

namespace Scene

variable {build : Build} {permits : Nat} {entries : List EntryPoint} {files : Files}
  {keeps : Scene → Label → Scene → Prop} {labels : List Label} {last next : Scene}

/-- A function is changed by the task of an entry point that is deployed as this function. -/
theorem Course.of_change (course : Course keeps (start build permits entries files) labels last)
    {actor : Actor} {call : RemoteCall} {reply : Reply call.Answer}
    (step : last.Step (.exchange actor (.call call) reply) next)
    (changes : call.isMutation = true) :
    ∃ index entry function, actor = .entry index ∧ entries[index]? = some entry ∧
      build.functionOf? entry = some function ∧ call.function? = some function ∧
      Calm function (heard index labels) ∧ ¬Panics index labels := by
  cases actor with
  | conductor =>
      generalize made : Label.exchange .conductor (.call call) reply = label at step
      cases moves_of_step step with
      | conductor conducts => cases conducts <;> cases made
      | moved | exchange => cases made
  | entry index =>
      obtain ⟨entry, there, wants, unharmed⟩ := course.wants_of_takes (takes_of_step step).1
      obtain ⟨function, isFunction, names, calm⟩ := EntryTask.calm_of_wants wants changes
      exact ⟨index, entry, function, rfl, there, isFunction, names, calm, unharmed⟩

/-- Of two changes of one function in a run, either one task makes both and finds the function
stable in between, or two entry points are deployed as this function. -/
theorem trace_changes_in_turn
    (trace : Scene.Trace (start build permits entries files) labels last)
    {before between after : List Label} {one two : Actor} {first second : RemoteCall}
    {reply : Reply first.Answer} {other : Reply second.Answer} {function : FunctionName}
    (cut : labels = before ++ .exchange one (.call first) reply :: between ++
      .exchange two (.call second) other :: after)
    (changes : first.isMutation = true) (names : first.function? = some function)
    (changesAgain : second.isMutation = true) (namesAgain : second.function? = some function) :
    (one = two ∧
      Label.exchange one (.call (.isStable function)) (.answered (.ok true)) ∈ between) ∨
    ∃ index index' entry entry', one = .entry index ∧ two = .entry index' ∧ index ≠ index' ∧
      entries[index]? = some entry ∧ entries[index']? = some entry' ∧
      build.functionOf? entry = some function ∧ build.functionOf? entry' = some function := by
  have course := course_of_trace trace
  rw [cut] at course
  obtain ⟨now, _, upToSecond, secondStep, -, -⟩ := course.split_at
  obtain ⟨earlier, _, upToFirst, firstStep, -, -⟩ := upToSecond.split_at
  obtain ⟨index, entry, ownName, rfl, there, isName, named, -, -⟩ :=
    upToFirst.of_change firstStep changes
  obtain ⟨index', entry', otherName, rfl, there', isName', named', calm, unharmed⟩ :=
    upToSecond.of_change secondStep changesAgain
  cases Option.some.inj (named.symm.trans names)
  cases Option.some.inj (named'.symm.trans namesAgain)
  by_cases same : index = index'
  · subst same
    refine Or.inl ⟨rfl, ?_⟩
    cases reply with
    | panicked =>
        exact absurd ⟨_, _, List.mem_append_right before List.mem_cons_self⟩ unharmed
    | answered answer =>
        have hears : (Label.exchange (.entry index) (.call first) (.answered answer)).heard? index =
            some ⟨.call first, answer⟩ := if_pos rfl
        rw [List.append_cons, heard_append, heard_concat_of_some hears, List.append_assoc,
          List.singleton_append] at calm
        exact mem_heard_iff.mp (calm _ _ _ rfl ⟨first, rfl, changes⟩)
  · exact Or.inr ⟨index, index', entry, entry', rfl, rfl, same, there, there', isName, isName'⟩

/-! ### Entry points with one function -/

/-- From a change of a function until the same task finds it stable, no other task changes it. -/
def OneInFlight (labels : List Label) : Prop :=
  ∀ before between after one two first second reply other function,
    labels = before ++ .exchange one (.call first) reply :: between ++
      .exchange two (.call second) other :: after →
    first.isMutation = true → first.function? = some function →
    second.isMutation = true → second.function? = some function →
    Label.exchange one (.call (.isStable function)) (.answered (.ok true)) ∉ between → two = one

end Scene

/-- A function that is not there comes to be created, after an upload or without. -/
theorem Reconciliation.exists_runs_create {deployment : Deployment} {bucket : String}
    (applies : deployment.options.dryRun = false)
    (given : deployment.options.bucket = some bucket) :
    ∃ said code, Task.Runs (start deployment) said
        ⟨deployment, .calling (.change ⟨[.create], code, []⟩ .create)⟩ ∧
      ∀ exchange ∈ said, ∃ call, exchange.1 = .call call := by
  have plans : deployment.planFor none = [.create] := rfl
  have creates (code : Payload) : Task.Runs
      (Reconciliation.mk deployment (.outside (deployment.proceed [.create] code [.create]))) []
      ⟨deployment, .calling (.change ⟨[.create], code, []⟩ .create)⟩ :=
    .acquire rfl (.here _)
  by_cases uploads : deployment.Uploads (deployment.planFor none)
  · have decides := Deployment.decide_of_uploads applies uploads
    rw [given, plans] at decides
    have uploaded := Deployment.runs_errand (.upload [.create] bucket) (Except.ok ()) rfl
      (creates (.stored bucket deployment.key))
    refine ⟨_, _, Deployment.runs_errand .lookUp (Except.ok none) decides uploaded, ?_⟩
    exact List.forall_mem_cons.mpr ⟨⟨_, rfl⟩, List.forall_mem_singleton.mpr ⟨_, rfl⟩⟩
  · have decides := Deployment.decide_of_direct applies uploads
    rw [plans] at decides
    refine ⟨_, _, Deployment.runs_errand .lookUp (Except.ok none) decides (creates _), ?_⟩
    exact List.forall_mem_singleton.mpr ⟨_, rfl⟩

namespace EntryTask

variable {build : Build} {entry : EntryPoint}

private theorem runs_deploying {first last : Reconciliation} {said : List Exchanged}
    (runs : Task.Runs first said last) :
    Task.Runs (⟨build, entry, .deploying first⟩ : EntryTask) said
      ⟨build, entry, .deploying last⟩ := by
  have step (reconciliation : Reconciliation) :
      Task.step (⟨build, entry, .deploying reconciliation⟩ : EntryTask) =
        (Task.step reconciliation).within (fun next => ⟨build, entry, .deploying next⟩)
          (afterDeploying ⟨build, entry, .deploying reconciliation⟩ reconciliation.deployment) :=
    step_deploying reconciliation
  induction runs with
  | here => exact .here _
  | @ask state last request resume rest asks answer _ ih =>
      have lifted : Task.step (⟨build, entry, .deploying state⟩ : EntryTask) =
          .ask request fun answer => ⟨build, entry, .deploying (resume answer)⟩ := by
        rw [step, asks]
        rfl
      exact .ask lifted answer ih
  | acquire acquires _ ih =>
      refine .acquire ?_ ih
      rw [step, acquires]
      rfl
  | release releases _ ih =>
      refine .release ?_ ih
      rw [step, releases]
      rfl

/-- A task that deploys begins, packages, tells that it deploys, and reconciles. -/
theorem runs_of_deployment {packaged : Packaged} {deployment : Deployment}
    {said spoken : List Exchanged} {last : Reconciliation}
    (packaging : Program.Trace (build.package entry).run said (.ok packaged))
    (deploys : build.deployment? packaged = some deployment)
    (runs : Task.Runs (Reconciliation.start deployment) spoken last) :
    Task.Runs (start build entry)
      (told (.packaging entry.fileName) ::
        (said ++ told (.deploying entry.fileName deployment.function) :: spoken))
      ⟨build, entry, .deploying last⟩ := by
  have begins : Task.step (start build entry) =
      .ask (.announce (.packaging entry.fileName)) fun _ =>
        ⟨build, entry, .packaging (build.package entry).run⟩ := rfl
  have packs : Task.step (⟨build, entry, .packaging (.done (.ok packaged))⟩ : EntryTask) =
      .ask (.announce (.deploying entry.fileName deployment.function)) fun _ =>
        ⟨build, entry, .deploying (.start deployment)⟩ := by
    change afterPackaging _ (.ok packaged) = _
    rw [afterPackaging, deploys]
    rfl
  exact .ask begins () ((Scene.runs_of_trace packaging).append
    (.ask packs () (runs_deploying runs)))

end EntryTask

/-- Calls are answered in any way, by settled surroundings too. -/
theorem answers_of_calls {answers : FixedAnswers} {said : List Exchanged} (files : Files)
    (calls : ∀ exchange ∈ said, ∃ call, exchange.1 = .call call) :
    Answers (Settled answers) files said files := by
  induction said with
  | nil => exact .nil files
  | cons exchange later ih =>
      obtain ⟨⟨call, isCall⟩, callsLater⟩ := List.forall_mem_cons.mp calls
      obtain ⟨request, answer⟩ := exchange
      cases isCall
      exact .cons (.call files call (.answered answer)) trivial (ih callsLater)

/-- An entry point that is packaged and has no function yet comes to create one. -/
theorem exists_runs_to_create {answers : FixedAnswers} {build : Build} {entry : EntryPoint}
    {files : Files} {packaged : Packaged} {deployment : Deployment} {bucket : String}
    (smooth : (Settled answers).Smooth (.ok ()))
    (alone : build.packagedAlone answers files entry = .ok (.ok packaged))
    (deploys : build.deployment? packaged = some deployment)
    (applies : deployment.options.dryRun = false)
    (given : deployment.options.bucket = some bucket) :
    ∃ said code place, files.Stores (build.archivePath entry) place ∧
      Answers (Settled answers) files said (files.put place (.file packaged.archive.bytes)) ∧
      Task.Runs (EntryTask.start build entry) said ⟨build, entry,
        .deploying ⟨deployment, .calling (.change ⟨[.create], code, []⟩ .create)⟩⟩ := by
  obtain ⟨said, last, trace, replies, place, stores, rfl⟩ := exists_answers_of_packagedAlone alone
  obtain ⟨spoken, code, runs, calls⟩ := Reconciliation.exists_runs_create applies given
  exact ⟨_, code, place, stores,
    .announce smooth _ (replies.append (.announce smooth _ (answers_of_calls _ calls))),
    EntryTask.runs_of_deployment trace deploys runs⟩

namespace Scene

/-- Two tasks come to their calls under a permit each, and make them one right after the other. -/
theorem exists_trace_of_two {answers : FixedAnswers} {build : Build} {one other : EntryPoint}
    {files middle finish : Files} {first second : EntryTask} {said spoken : List Exchanged}
    {call made : RemoteCall} {resume : call.Answer → EntryTask} {goOn : made.Answer → EntryTask}
    (smooth : (Settled answers).Smooth (.ok ()))
    (firstRuns : Task.Runs (EntryTask.start build one) said first)
    (firstReplies : Answers (Settled answers) files said middle)
    (firstAsks : Task.step first = .ask (.call call) resume)
    (firstHolds : Task.holdsPermit first = true)
    (secondRuns : Task.Runs (EntryTask.start build other) spoken second)
    (secondReplies : Answers (Settled answers) middle spoken finish)
    (secondAsks : Task.step second = .ask (.call made) goOn)
    (secondHolds : Task.holdsPermit second = true) (answer : call.Answer) (reply : made.Answer) :
    ∃ labels last, Scene.Trace (start build 2 [one, other] files)
      (labels ++ [.exchange (.entry 0) (.call call) (.answered answer),
        .exchange (.entry 1) (.call made) (.answered reply)]) last := by
  obtain ⟨opening, opens⟩ := exists_course_of_opening smooth build 2 [one, other] files
  obtain ⟨labels, firstComes, -⟩ := @course_of_runs (Settled answers) [one, other] []
    [.active (.start build other)] files middle _ _ _ firstRuns firstReplies 1
  obtain ⟨later, secondComes, -⟩ := @course_of_runs (Settled answers) [one, other] [.active first]
    [] middle finish _ _ _ secondRuns secondReplies 0
  have firstFree : freeBeside 1 first = freeBeside 0 (EntryTask.start build other) :=
    if_pos firstHolds
  have secondFree : freeBeside 0 second = 0 := if_pos secondHolds
  rw [firstFree] at firstComes
  rw [secondFree] at secondComes
  have firstCalls := @step_of_ask [one, other] 0 [] [.active second] finish finish _ _ _ answer
    firstAsks (.call finish call _)
  have secondCalls := @step_of_ask [one, other] 0 [.active (resume answer)] [] finish finish _ _ _
    reply secondAsks (.call finish made _)
  have trace := ((opens.append firstComes).append secondComes).trace.append
    (.cons firstCalls (.cons secondCalls (.nil _)))
  exact ⟨_, _, trace⟩

/-- The parameters that two entry points share. -/
def twinParameters : Parameters := ⟨"f", 128, 3, 512⟩

/-- An entry point with these parameters. -/
def twin (name : String) : EntryPoint :=
  ⟨name, Base64.encode (Codec.encode twinParameters.toValue), none⟩

/-- A build that deploys, two calls at a time. -/
def twinBuild : Build :=
  let deploy : DeploySettings :=
    ⟨"region", "role", some "bucket", none, none, "provided.al2", 300, 2, false⟩
  ⟨⟨⟨"/p/app"⟩, ⟨"/p/app.json"⟩, "app", none, ⟨"/p"⟩, none, none, false, .x86_64, false,
    some deploy⟩, none, some (deploy.options .x86_64), .standard⟩

/-- The executables of two entry points, and a loader. -/
def twinFiles : Files :=
  ⟨[], [(["p"], .directory), (["p", "a"], .file [1]), (["p", "b"], .file [2]),
    (["p", "ld-1"], .file [3])]⟩

/-- The function of both. -/
def twinFunction : FunctionName :=
  .compute "app" twinParameters

/-- Two entry points with the same parameters both create their function. -/
theorem exists_trace_twins :
    ∃ labels last call made,
      Scene.Trace (start twinBuild 2 [twin "a", twin "b"] twinFiles)
        (labels ++ [.exchange (.entry 0) (.call (.create call)) (.answered (.ok ())),
          .exchange (.entry 1) (.call (.create made)) (.answered (.ok ()))]) last ∧
      call.function = twinFunction ∧ made.function = twinFunction := by
  let answers := FixedAnswers.listing fun _ => .answered (.ok (.ofList [.ofPath ⟨"/p/ld-1"⟩]))
  have smooth : (Settled answers).Smooth (.ok ()) :=
    ⟨fun _ _ => trivial, fun _ => ⟨rfl, rfl⟩, fun _ => ⟨rfl, rfl⟩⟩
  have known (name : String) : (twin name).parameters = .ok twinParameters :=
    EntryPoint.parameters_toValue _ _ ⟨by decide, by decide, by decide⟩ (by decide)
  have first : (twinBuild.packagedAlone answers twinFiles (twin "a")).map
      (Except.map Packaged.parameters) = .ok (.ok twinParameters) := by
    rw [Build.packagedAlone, Build.package, known]
    decide +kernel
  let after := twinBuild.filesAfter answers twinFiles (twin "a") ["p", "a.zip"]
  have second : (twinBuild.packagedAlone answers after (twin "b")).map
      (Except.map Packaged.parameters) = .ok (.ok twinParameters) := by
    rw [Build.packagedAlone, Build.package, known]
    decide +kernel
  obtain ⟨packaged, alone, one⟩ := Build.exists_packaged_of_map first
  obtain ⟨packaged', alone', two⟩ := Build.exists_packaged_of_map second
  have lies : twinFiles.target (twinBuild.archivePath (twin "a")) = .ok ["p", "a.zip"] := by
    decide +kernel
  obtain ⟨said, code, place, stores, replies, runs⟩ :=
    exists_runs_to_create smooth alone rfl rfl rfl
  rw [put_eq_filesAfter alone stores lies] at replies
  obtain ⟨spoken, code', place', -, replies', runs'⟩ :=
    exists_runs_to_create smooth alone' rfl rfl rfl
  obtain ⟨labels, last, trace⟩ := exists_trace_of_two smooth runs replies rfl rfl runs' replies'
    rfl rfl (.ok ()) (.ok ())
  exact ⟨labels, last, _, _, trace, congrArg (FunctionName.compute "app") one,
    congrArg (FunctionName.compute "app") two⟩

/-- Tasks of two entry points with the same parameters change their function at the same time. -/
theorem exists_not_oneInFlight :
    ∃ labels last, Scene.Trace (start twinBuild 2 [twin "a", twin "b"] twinFiles) labels last ∧
      ¬OneInFlight labels := by
  obtain ⟨labels, last, call, made, trace, names, also⟩ := exists_trace_twins
  refine ⟨_, last, trace, fun oneInFlight => ?_⟩
  have same : Actor.entry 1 = .entry 0 :=
    oneInFlight labels [] [] (.entry 0) (.entry 1) (.create call) (.create made) _ _ twinFunction
      (List.append_cons ..) rfl (congrArg some names) rfl (congrArg some also) List.not_mem_nil
  cases same

/-- The two entry points are deployed as one function. -/
theorem trace_changes_in_turn_twins :
    ∃ labels last call made,
      Scene.Trace (start twinBuild 2 [twin "a", twin "b"] twinFiles)
        (labels ++ .exchange (.entry 0) (.call (.create call)) (.answered (.ok ())) :: [] ++
          .exchange (.entry 1) (.call (.create made)) (.answered (.ok ())) :: []) last ∧
      call.function = twinFunction ∧ made.function = twinFunction ∧
      twinBuild.functionOf? (twin "a") = some twinFunction ∧
      twinBuild.functionOf? (twin "b") = some twinFunction := by
  obtain ⟨labels, last, call, made, trace, names, also⟩ := exists_trace_twins
  rw [List.append_cons] at trace
  obtain ⟨-, stable⟩ | ⟨index, index', entry, entry', one, two, -, there, there', first, second⟩ :=
    trace_changes_in_turn trace rfl rfl (congrArg some names) rfl
      (congrArg some also)
  · cases stable
  · cases one
    cases two
    cases there
    cases there'
    exact ⟨labels, last, call, made, trace, names, also, first, second⟩

end Scene

end FunctionBundler
