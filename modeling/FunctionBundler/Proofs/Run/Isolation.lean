/-
Module: FunctionBundler.Proofs.Run.Isolation
Purpose: What an entry point comes to in a run does not depend on the other entry points.
Trusted boundary: none
Main exports:
  Apart, Scene.Course.unmoved, Scene.Course.replied, Build.outcomeAlone,
  Scene.Course.report?_eq, Scene.Course.read_eq, Scene.Isolated, Scene.course_isolated,
  Scene.Separate, Scene.separate_not_isolated
-/
import FunctionBundler.Proofs.Run.Packaging

namespace FunctionBundler

/-!
In a run that does not deploy, with an environment that always replies alike and
changes no file, the only changes are archives that are written.  If no path that an
entry point looks up leads to where the archive of another one is stored, everything
it looks up stays as it was, up to its own last write.  So it is replied to as if
nothing ever changed, and comes to what `Build.packagedAlone` says: a function of the
entry point and of the files at the beginning.  That holds in a run with other entry
points and in one without them.
-/

/-! ### What an entry point looks up -/

/-- The libraries in a reply, if some were listed. -/
def Reply.libraries : Reply (Except Failure LibrarySet) → List LibraryPath
  | .answered (.ok listed) => listed.paths
  | .answered (.error _) | .panicked _ => []

/-- The files that packaging an entry point can read: its executable, and the libraries that the
environment lists for it. -/
def Build.sources (build : Build) (answers : FixedAnswers) (entry : EntryPoint) : List Path :=
  let dependencies := (answers (.dependencies (build.executable entry))).libraries
  let base := if build.settings.withLibc then (answers .baseLibraries).libraries else []
  build.executable entry :: (dependencies ++ base).map (Archive.source build.root)

/-- The paths that packaging an entry point can look up. -/
def Build.lookups (build : Build) (answers : FixedAnswers) (entry : EntryPoint) : List Path :=
  build.archivePath entry :: build.sources answers entry

/-- No path that an entry point looks up leads to where the archive of another one is stored:
neither is its file that archive, nor is that archive the first thing missing on the way. -/
def Apart (build : Build) (answers : FixedAnswers) (entries : List EntryPoint) (files : Files) :
    Prop :=
  ∀ (one other : Nat) entry entry', one ≠ other → entries[one]? = some entry →
    entries[other]? = some entry' → ∀ path ∈ build.lookups answers entry', ∀ place,
      files.target (build.archivePath entry) = .ok place → files.leads path ≠ some place

section

variable {build : Build} {answers : FixedAnswers} {entries : List EntryPoint} {files : Files}

/-- A sole entry point is apart from all others. -/
theorem Apart.singleton (entry : EntryPoint) : Apart build answers [entry] files := by
  intro one other entry one' differs there there'
  obtain ⟨inside, -⟩ := List.getElem?_eq_some_iff.mp there
  obtain ⟨inside', -⟩ := List.getElem?_eq_some_iff.mp there'
  exact absurd ((Nat.lt_one_iff.mp inside).trans (Nat.lt_one_iff.mp inside').symm) differs

/-- Entry points that are apart share no place. -/
theorem Apart.unshared (apart : Apart build answers entries files) {index : Nat}
    {entry : EntryPoint} (there : entries[index]? = some entry) :
    Unshared build entries files index entry := by
  intro other entry' differs there'
  have elsewhere {path : Path} (looks : path ∈ build.lookups answers entry') :
      ¬files.SamePlace (build.archivePath entry) path := by
    intro same
    obtain ⟨place, found, found'⟩ := same
    exact apart index other entry entry' differs.symm there there' path looks place found
      (Files.leads_of_target found')
  exact ⟨elsewhere List.mem_cons_self,
    fun _ => elsewhere (List.mem_cons_of_mem _ List.mem_cons_self)⟩

private theorem Build.source_mem_lookups {entry : EntryPoint} {heard : List Exchanged}
    {library : LibraryPath} (listed : build.Listed entry heard library)
    (replied : ∀ operation (answer : operation.Answer),
      (⟨.environment operation, answer⟩ : Exchanged) ∈ heard →
        answers operation = .answered answer) :
    Archive.source build.root library ∈ build.lookups answers entry := by
  refine List.mem_cons_of_mem _ (List.mem_cons_of_mem _ (List.mem_map_of_mem ?_))
  rcases listed with ⟨loaded, member, answered⟩ | ⟨wanted, base, member, answered⟩
  · rw [replied _ _ answered]
    exact List.mem_append_left _ member
  · rw [if_pos wanted, replied _ _ answered]
    exact List.mem_append_right _ member

end

namespace Scene

variable {build : Build} {answers : FixedAnswers} {permits : Nat} {entries : List EntryPoint}
  {files : Files} {labels : List Label} {last : Scene} {index : Nat} {entry : EntryPoint}

/-- Until an entry point has written its archive, everything that it looks up stays as it was. -/
theorem Course.unmoved
    (course : Course (Under (Settled answers)) (start build permits entries files) labels last)
    (apart : Apart build answers entries files) (there : entries[index]? = some entry)
    (unwritten : ∀ label ∈ labels, label.Writes → label.actor ≠ .entry index) {path : Path}
    (looks : path ∈ build.lookups answers entry) : files.Unmoved last.files path := by
  induction course with
  | nil => exact .refl files path
  | @concat labels middle last label course step settled ih =>
      have earlier := ih fun label member => unwritten label (List.mem_append_left _ member)
      have now := unwritten label (List.mem_append_right _ List.mem_cons_self)
      have stored := course.inPlace_of_settled.stored step (under_inPlace settled)
      generalize changed : last.files = after at stored ⊢
      cases stored with
      | nothing => exact earlier
      | @archive other entry' place content there' _ stores =>
          have differs : other ≠ index := fun same => now trivial (congrArg Actor.entry same)
          have found := course.inPlace_of_settled.sameDirectories.symm.target stores.target
          exact earlier.put stores.free
            (apart other index entry' entry differs there' there path looks place found) content
      | executable =>
          have unchanged : last.files = middle.files := settled.2
          rw [← changed, unchanged]
          exact earlier

/-- What an entry point looks up is answered as it would have been at the beginning. -/
theorem Course.answer_eq
    (course : Course (Under (Settled answers)) (start build permits entries files) labels last)
    (apart : Apart build answers entries files) (there : entries[index]? = some entry)
    (unwritten : ∀ label ∈ labels, label.Writes → label.actor ≠ .entry index) {access : Access}
    (looks : access.path ∈ build.lookups answers entry) :
    (last.files.answer access).1 = (files.answer access).1 :=
  (course.unmoved apart there unwritten looks).answer_eq course.inPlace_of_settled.sameDirectories

/-- The reply to an access is what it would have been at the beginning. -/
theorem Course.reply_of_reacts
    (course : Course (Under (Settled answers)) (start build permits entries files) labels last)
    (apart : Apart build answers entries files) (there : entries[index]? = some entry)
    (unwritten : ∀ label ∈ labels, label.Writes → label.actor ≠ .entry index) {access : Access}
    {reply : Reply access.Answer} {after : Files}
    (reacts : Reacts last.files (.access access) reply after)
    (looks : access.path ∈ build.lookups answers entry) :
    reply = answers.reply files (.access access) := by
  cases reacts
  exact congrArg Reply.answered (course.answer_eq apart there unwritten looks)

private theorem reply_of_environment {scene next : Scene} {actor : Actor} {operation : Operation}
    {reply : Reply operation.Answer} (settled :
      scene.Under (Settled answers) (.exchange actor (.environment operation) reply) next) :
    reply = answers.reply files (.environment operation) :=
  settled.1

/-- The task of an entry point is replied to as if nothing around it ever changed. -/
theorem Course.replied
    (course : Course (Under (Settled answers)) (start build permits entries files) labels last)
    (stays : ∀ packaged, build.deployment? packaged = none)
    (apart : Apart build answers entries files) (there : entries[index]? = some entry) :
    ∀ request (reply : Reply request.Answer),
      Label.exchange (.entry index) request reply ∈ labels →
        reply = answers.reply files request := by
  induction course with
  | nil => exact fun _ _ => nofun
  | @concat labels middle last label course step settled ih =>
      intro request reply member
      rcases List.mem_append.mp member with earlier | now
      · exact ih request reply earlier
      · obtain rfl := List.mem_singleton.mp now
        obtain ⟨takes, reacts⟩ := takes_of_step step
        obtain ⟨entry', there', wants, -⟩ := course.wants_of_takes takes
        cases there.symm.trans there'
        generalize whole : heard index labels = said at wants
        cases wants with
        | tells =>
            generalize last.files = after at reacts
            cases reacts
            rfl
        | reconciles _ deploys => cases (stays _).symm.trans deploys
        | packages reaches =>
            obtain ⟨asks, unwritten⟩ := Build.asks_of_reaches reaches
            have unwritten : ∀ label ∈ labels, label.Writes → label.actor ≠ .entry index := by
              apply unwritten_of_heard
              intro path content written
              rw [whole] at written
              rcases List.mem_cons.mp written with same | inPackaging
              · cases same
              · exact unwritten _ inPackaging ⟨path, content, rfl⟩
            have isExecutable : build.executable entry ∈ build.lookups answers entry :=
              List.mem_cons_of_mem _ List.mem_cons_self
            cases asks with
            | inspect =>
                exact course.reply_of_reacts apart there unwritten reacts isExecutable
            | executable =>
                exact course.reply_of_reacts apart there unwritten reacts isExecutable
            | write content =>
                refine course.reply_of_reacts apart there unwritten reacts ?_
                rw [Access.path_write]
                exact List.mem_cons_self
            | strip | dependencies | base => exact reply_of_environment settled
            | library isListed =>
                refine course.reply_of_reacts apart there unwritten reacts ?_
                rw [Access.path_read]
                refine Build.source_mem_lookups isListed fun operation answer said => ?_
                have inHeard := List.mem_cons_of_mem (told (.packaging entry.fileName)) said
                rw [← whole] at inHeard
                exact (ih _ _ (mem_heard_iff.mp inHeard)).symm

end Scene

/-! ### What becomes of an entry point -/

/-- The outcome of an entry point around which nothing changes. -/
def Build.outcomeAlone (build : Build) (answers : FixedAnswers) (files : Files)
    (entry : EntryPoint) : Outcome :=
  match build.packagedAlone answers files entry with
  | .ok result => .ofPackaging result
  | .error cause => .aborted cause

/-- What is found in the end at the path of the archive of an entry point around which nothing
changes. -/
def Build.archiveAlone (build : Build) (answers : FixedAnswers) (files : Files)
    (entry : EntryPoint) : Except FileError Bytes :=
  match build.packagedAlone answers files entry with
  | .ok (.ok packaged) => .ok packaged.archive.bytes
  | _ => files.read (build.archivePath entry)

namespace Scene

variable {build : Build} {answers : FixedAnswers} {permits : Nat} {entries : List EntryPoint}
  {files : Files} {labels : List Label} {last : Scene} {index : Nat} {entry : EntryPoint}

/-- What is found at the path of an archive that was not written. -/
theorem Course.read_unwritten
    (course : Course (Under (Settled answers)) (start build permits entries files) labels last)
    (apart : Apart build answers entries files) (there : entries[index]? = some entry)
    (unwritten : ∀ label ∈ labels, label.Writes → label.actor ≠ .entry index) :
    last.files.read (build.archivePath entry) = files.read (build.archivePath entry) := by
  have looks : (Access.read (build.archivePath entry)).path ∈ build.lookups answers entry := by
    rw [Access.path_read]
    exact List.mem_cons_self
  have same := course.answer_eq apart there unwritten looks
  rwa [Files.answer_read, Files.answer_read] at same

/-- An entry point comes to what it comes to where nothing changes. -/
theorem Course.ends_alone
    (course : Course (Under (Settled answers)) (start build permits entries files) labels last)
    (stays : ∀ packaged, build.deployment? packaged = none)
    (apart : Apart build answers entries files) (there : entries[index]? = some entry)
    {outcome : Outcome} (ends : Ends build entry index labels outcome) :
    outcome = build.outcomeAlone answers files entry ∧
      last.files.read (build.archivePath entry) = build.archiveAlone answers files entry := by
  have replied := course.replied stays apart there
  have heardReplies (exchange : Exchanged) (member : exchange ∈ heard index labels) :
      answers.reply files exchange.1 = .answered exchange.2 :=
    (replied _ _ (mem_heard_iff.mp member)).symm
  cases course.fared there ends with
  | @failed said failure unharmed journey whole =>
      rw [whole] at heardReplies
      have alone := Build.packagedAlone_of_trace (Build.trace_package_iff.mpr journey)
        fun exchange member => heardReplies exchange (by simp [member])
      have unwritten := course.read_unwritten apart there (unwritten_of_heard fun path content => by
        simpa [whole, told] using journey.unwritten_of_error path content)
      rw [Build.outcomeAlone, Build.archiveAlone, alone]
      exact ⟨rfl, unwritten⟩
  | @panicked said operation cause resume panicked reaches whole =>
      rw [whole] at heardReplies
      have alone := Build.packagedAlone_of_reaches reaches
        (fun exchange member => heardReplies exchange (List.mem_cons_of_mem _ member))
        (replied _ _ panicked).symm
      have nothing := (Build.asks_of_reaches reaches).2
      have unwritten := course.read_unwritten apart there (unwritten_of_heard fun path content => by
        rw [whole]
        intro member
        rcases List.mem_cons.mp member with same | inPackaging
        · cases same
        · exact nothing _ inPackaging ⟨path, content, rfl⟩)
      rw [Build.outcomeAlone, Build.archiveAlone, alone]
      exact ⟨rfl, unwritten⟩
  | @delivered said later packaged outcome unharmed journey delivers whole =>
      cases delivers with
      | deployed deploys | notDeployed deploys => cases (stays _).symm.trans deploys
      | kept =>
          have written : build.archiveWritten entry packaged.archive (.ok ()) ∈
              heard index labels := by
            obtain ⟨before, cut, -⟩ := journey.of_ok nofun
            simp [whole, cut]
          have found := course.inPlace_of_settled.read_archive (apart.unshared there)
            (mem_heard_iff.mp written)
          rw [whole] at heardReplies
          have alone := Build.packagedAlone_of_trace (Build.trace_package_iff.mpr journey)
            fun exchange member => heardReplies exchange (by simp [member])
          rw [Build.outcomeAlone, Build.archiveAlone, alone]
          exact ⟨rfl, found⟩
  | @lost said later packaged call cause panicked journey whole =>
      obtain ⟨-, ⟨entry', there', wants⟩, -⟩ := course.of_panicked panicked
      generalize heard index labels = said at wants
      cases wants with
      | packages reaches => cases (Build.asks_of_reaches reaches).1
      | reconciles _ deploys => cases (stays _).symm.trans deploys

/-- Every entry point comes to what it comes to where nothing changes. -/
theorem Course.results_eq
    (course : Course (Under (Settled answers)) (start build permits entries files) labels last)
    (stays : ∀ packaged, build.deployment? packaged = none)
    (apart : Apart build answers entries files) {results : List (EntryPoint × Outcome)}
    (ended : last.run.results? = some results) :
    results = entries.map fun entry => (entry, build.outcomeAlone answers files entry) := by
  obtain ⟨inOrder, ends⟩ := course.of_results? ended
  let alone (entry : EntryPoint) : EntryPoint × Outcome :=
    (entry, build.outcomeAlone answers files entry)
  have each (result : EntryPoint × Outcome) (member : result ∈ results) :
      alone result.1 = result := by
    obtain ⟨entry, outcome⟩ := result
    obtain ⟨index, found⟩ := List.mem_iff_getElem?.mp member
    obtain ⟨there, ends⟩ := ends index entry outcome found
    rw [(course.ends_alone stays apart there ends).1]
  have whole : results.map (alone ∘ Prod.fst) = results.map id := List.map_congr_left each
  rw [← inOrder, List.map_map, whole, List.map_id]

private theorem Course.reply_of_mem {first : Scene} {actor : Actor} {operation : Operation}
    {reply : Reply operation.Answer} (course : Course (Under (Settled answers)) first labels last)
    (member : Label.exchange actor (.environment operation) reply ∈ labels) :
    reply = answers operation := by
  obtain ⟨before, after, rfl⟩ := List.append_of_mem member
  obtain ⟨middle, next, -, -, settled, -⟩ := course.split_at
  exact settled.1

/-- An environment with fixed answers is started as these say. -/
theorem Course.starts {first : Scene} {reply : Reply (Operation.start).Answer}
    {later : List Label} (course : Course (Under (Settled answers)) first labels last)
    (whole : labels = startLabel reply :: later) : reply = answers .start := by
  apply course.reply_of_mem
  rw [whole]
  exact List.mem_cons_self

end Scene

/-- What a run reports that comes to these results, if the environment can be started. -/
def FixedAnswers.report? (answers : FixedAnswers) (results : List (EntryPoint × Outcome)) :
    Option (Except Failure RunReport) :=
  match answers .start, answers .stop with
  | .panicked _, _ | _, .panicked _ => none
  | .answered (.error failure), .answered _ => some (.error failure)
  | .answered (.ok ()), .answered _ => some (.ok ⟨results⟩)

/-- The report about one of the entry points. -/
def RunReport.only (index : Nat) (report : RunReport) : RunReport :=
  ⟨report.results[index]?.toList⟩

private theorem FixedAnswers.report?_only (answers : FixedAnswers)
    (results : List (EntryPoint × Outcome)) (index : Nat) :
    (answers.report? results).map (Except.map (RunReport.only index)) =
      answers.report? results[index]?.toList := by
  rw [FixedAnswers.report?, FixedAnswers.report?]
  rcases answers .start with (_ | _) | _ <;> rcases answers .stop with _ | _ <;> rfl

namespace Scene

variable {build : Build} {answers : FixedAnswers} {permits : Nat} {entries : List EntryPoint}
  {files : Files} {labels : List Label} {last : Scene} {index : Nat} {entry : EntryPoint}

/-- A run reports what each entry point comes to where nothing changes. -/
theorem Course.report?_eq
    (course : Course (Under (Settled answers)) (start build permits entries files) labels last)
    (stays : ∀ packaged, build.deployment? packaged = none)
    (apart : Apart build answers entries files) (isOver : last.Over) :
    last.run.report? = answers.report?
      (entries.map fun entry => (entry, build.outcomeAlone answers files entry)) := by
  cases course.parts isOver with
  | crashed whole standing =>
      have starts : .panicked _ = answers .start := course.starts whole
      rw [FixedAnswers.report?, ← starts, Run.report?, standing]
  | @stopped started reply later told middle whole tells refused before same ended standing =>
      have starts : .answered started = answers .start := course.starts whole
      have stops : reply = answers .stop :=
        course.reply_of_mem (by
          rw [whole]
          exact List.mem_append_right _ List.mem_cons_self)
      rw [FixedAnswers.report?, ← starts, ← stops, Run.report?, standing]
      cases reply with
      | panicked => cases started <;> rfl
      | answered answer =>
          cases started with
          | error failure => rfl
          | ok =>
              obtain ⟨results, stood⟩ := Option.ne_none_iff_exists'.mp (ended rfl)
              have found := same.trans stood
              rw [← course.results_eq stays apart found]
              dsimp only [finalPhase]
              rw [found]
              rfl

private theorem unwritten_of_conductor (conducted : ∀ label ∈ labels, label.actor = .conductor) :
    ∀ label ∈ labels, label.Writes → label.actor ≠ .entry index := by
  intro label member _ own
  cases (conducted label member).symm.trans own

/-- In the end the archive of an entry point is what it is where nothing changes around it, if the
environment can be started. -/
theorem Course.read_eq
    (course : Course (Under (Settled answers)) (start build permits entries files) labels last)
    (stays : ∀ packaged, build.deployment? packaged = none)
    (apart : Apart build answers entries files) (isOver : last.Over)
    (there : entries[index]? = some entry) :
    last.files.read (build.archivePath entry) = match answers .start with
      | .answered (.ok ()) => build.archiveAlone answers files entry
      | _ => files.read (build.archivePath entry) := by
  cases course.parts isOver with
  | crashed whole standing =>
      have starts : .panicked _ = answers .start := course.starts whole
      rw [← starts]
      apply course.read_unwritten apart there (unwritten_of_conductor _)
      rw [whole]
      exact List.forall_mem_singleton.mpr rfl
  | @stopped started reply later told middle whole tells refused before same ended standing =>
      have starts : .answered started = answers .start := course.starts whole
      rw [← starts]
      cases started with
      | error failure =>
          obtain rfl := refused failure rfl
          apply course.read_unwritten apart there (unwritten_of_conductor _)
          rw [whole]
          refine List.forall_mem_cons.mpr ⟨rfl, List.forall_mem_cons.mpr ⟨rfl, ?_⟩⟩
          exact fun label member => (tells label member).1
      | ok =>
          obtain ⟨results, stood⟩ := Option.ne_none_iff_exists'.mp (ended rfl)
          obtain ⟨inOrder, ends⟩ := course.of_results? (same.trans stood)
          have found := there
          rw [← inOrder, List.getElem?_map] at found
          obtain ⟨⟨entry', outcome⟩, result, rfl⟩ := Option.map_eq_some_iff.mp found
          exact (course.ends_alone stays apart there (ends index entry' outcome result).2).2

/-- What is reported about an entry point, and what is found in the end at the path of its archive,
is the same in every run with some entry points as in every run with this one alone. -/
def Isolated (build : Build) (answers : FixedAnswers) (permits : Nat) (entries : List EntryPoint)
    (files : Files) (index : Nat) (entry : EntryPoint) : Prop :=
  ∀ labels last others alone,
    Course (Under (Settled answers)) (start build permits entries files) labels last → last.Over →
    Course (Under (Settled answers)) (start build permits [entry] files) others alone →
    alone.Over →
      alone.run.report? = last.run.report?.map (Except.map (RunReport.only index)) ∧
        alone.files.read (build.archivePath entry) = last.files.read (build.archivePath entry)

/-- In an environment that always replies alike and changes no file, every run without deployments
can be led to its end; and if no path that an entry point looks up leads to where the archive of
another one is stored, every entry point is isolated, whatever the order of turns is. -/
theorem course_isolated (stays : ∀ packaged, build.deployment? packaged = none)
    (apart : Apart build answers entries files) (there : entries[index]? = some entry) :
    (∀ scene : Scene, ∃ labels last,
        Course (Under (Settled answers)) scene labels last ∧ last.Over) ∧
      Isolated build answers permits entries files index entry := by
  refine ⟨exists_over (Habit.live_settled answers),
    fun labels last others alone joint jointOver single singleOver => ⟨?_, ?_⟩⟩
  · rw [joint.report?_eq stays apart jointOver,
      single.report?_eq stays (Apart.singleton entry) singleOver, FixedAnswers.report?_only,
      List.getElem?_map, there]
    rfl
  · have own : [entry][0]? = some entry := rfl
    rw [joint.read_eq stays apart jointOver there,
      single.read_eq stays (Apart.singleton entry) singleOver own]

/-- An entry point beside one in whose packaging the environment panics. -/
theorem course_isolated_panicking :
    let parameters : Parameters := ⟨"f", 128, 3, 512⟩
    let metadata := Base64.encode (Codec.encode parameters.toValue)
    let build : Build := ⟨⟨⟨"/p/app"⟩, ⟨"/p/app.json"⟩, "app", none, ⟨"/p"⟩, none, none, false,
      .x86_64, false, none⟩, none, none, .standard⟩
    let answers := FixedAnswers.listing fun executable =>
      if executable = ⟨"/p/b"⟩ then .panicked "out of bounds"
      else .answered (.ok (.ofList [.ofPath ⟨"/p/ld-1"⟩]))
    let files : Files := ⟨[], [(["p"], .directory), (["p", "a"], .file [1]),
      (["p", "b"], .file [2]), (["p", "ld-1"], .file [3])]⟩
    let one : EntryPoint := ⟨"a", metadata, none⟩
    let other : EntryPoint := ⟨"b", metadata, none⟩
    ∃ labels last others alone,
      Course (Under (Settled answers)) (start build 1 [one, other] files) labels last ∧ last.Over ∧
        Course (Under (Settled answers)) (start build 1 [one] files) others alone ∧ alone.Over ∧
        alone.run.report? = last.run.report?.map (Except.map (RunReport.only 0)) ∧
        alone.files.read (build.archivePath one) = last.files.read (build.archivePath one) := by
  intro parameters metadata build answers files one other
  have atOther : ∀ path ∈ build.lookups answers other,
      files.leads path ≠ (files.target (build.archivePath one)).toOption := by decide +kernel
  have atOne : ∀ path ∈ build.lookups answers one,
      files.leads path ≠ (files.target (build.archivePath other)).toOption := by decide +kernel
  have apart : Apart build answers [one, other] files := by
    intro first second entry entry' differs there there' path looks place found
    match first, second with
    | 0, 0 | 1, 1 => exact absurd rfl differs
    | 0, 1 =>
        cases there
        cases there'
        have elsewhere := atOther path looks
        rwa [found] at elsewhere
    | 1, 0 =>
        cases there
        cases there'
        have elsewhere := atOne path looks
        rwa [found] at elsewhere
    | _ + 2, _ => cases there
    | _, _ + 2 => cases there'
  obtain ⟨complete, isolated⟩ := @course_isolated build answers 1 [one, other] files 0 one
    (fun _ => rfl) apart rfl
  obtain ⟨labels, last, joint, jointOver⟩ := complete (start build 1 [one, other] files)
  obtain ⟨others, alone, single, singleOver⟩ := complete (start build 1 [one] files)
  obtain ⟨reports, found⟩ := isolated labels last others alone joint jointOver single singleOver
  exact ⟨labels, last, others, alone, joint, jointOver, single, singleOver, reports, found⟩

/-- Entry points are not isolated if packaging one of them after another comes to something else
than packaging one alone. -/
theorem not_isolated_of_succession (smooth : (Settled answers).Smooth (.ok ()))
    (stays : ∀ packaged, build.deployment? packaged = none)
    {results : List (EntryPoint × Outcome)} {outcome : Outcome} {after afterAlone : Files}
    (joint : Succession (Settled answers) build files results after)
    (single : Succession (Settled answers) build files [(entry, outcome)] afterAlone)
    (differs : results[index]? ≠ some (entry, outcome) ∨
      afterAlone.read (build.archivePath entry) ≠ after.read (build.archivePath entry)) :
    ¬Isolated build answers permits (results.map Prod.fst) files index entry := by
  intro isolated
  obtain ⟨labels, last, course, isOver, -, returns, rfl⟩ :=
    exists_course_of_succession smooth stays joint permits
  obtain ⟨others, alone, courseAlone, overAlone, -, returnsAlone, rfl⟩ :=
    exists_course_of_succession smooth stays single permits
  obtain ⟨reports, found⟩ := isolated labels last others alone course isOver courseAlone overAlone
  rcases differs with otherOutcome | otherContent
  · rw [returns, returnsAlone] at reports
    apply otherOutcome
    cases there : results[index]? with
    | none =>
        rw [Option.map_some, Except.map, RunReport.only, there] at reports
        cases reports
    | some result =>
        rw [Option.map_some, Except.map, RunReport.only, there] at reports
        cases reports
        rfl
  · exact otherContent found

/-- The executables and the archives of entry points have different paths, and no archive has the
path of an executable or of a library.  Paths are compared component by component. -/
def Separate (build : Build) (answers : FixedAnswers) (entries : List EntryPoint) : Prop :=
  (entries.map fun entry => (build.executable entry).components).Nodup ∧
    (entries.map fun entry => (build.archivePath entry).components).Nodup ∧
    ∀ entry ∈ entries, ∀ other ∈ entries, ∀ path ∈ build.sources answers other,
      (build.archivePath entry).components ≠ path.components

instance (build : Build) (answers : FixedAnswers) (entries : List EntryPoint) :
    Decidable (Separate build answers entries) :=
  inferInstanceAs (Decidable (_ ∧ _ ∧ _))

/-- Entry points with different paths need not be isolated: two paths can lead to one archive, and a
path can lead through an archive that is not there yet. -/
theorem separate_not_isolated :
    let parameters : Parameters := ⟨"f", 128, 3, 512⟩
    let metadata := Base64.encode (Codec.encode parameters.toValue)
    let build : Build := ⟨⟨⟨"/p/app"⟩, ⟨"/p/app.json"⟩, "app", none, ⟨"/p"⟩, none, none, false,
      .x86_64, false, none⟩, none, none, .standard⟩
    let answers := FixedAnswers.listing fun executable =>
      let loader := if executable = ⟨"/p/a"⟩ then "/p/ld-1" else "/p/ld-22"
      .answered (.ok (.ofList [.ofPath ⟨loader⟩]))
    let files : Files := ⟨[], [(["p"], .directory), (["p", "d"], .directory),
      (["p", "a"], .file [1]), (["p", "a.b"], .file [2]), (["p", "ld-1"], .file [3]),
      (["p", "ld-22"], .file [4])]⟩
    let first : EntryPoint := ⟨"a", metadata, none⟩
    let linked : EntryPoint := ⟨"d/../a.b", metadata, none⟩
    let nested : EntryPoint := ⟨"a.zip/b", metadata, none⟩
    (∀ packaged, build.deployment? packaged = none) ∧
      Separate build answers [first, linked] ∧
      ¬Isolated build answers 1 [first, linked] files 0 first ∧
      Separate build answers [first, nested] ∧
      ¬Isolated build answers 1 [first, nested] files 1 nested := by
  intro parameters metadata build answers files first linked nested
  have stays (packaged : Packaged) : build.deployment? packaged = none := rfl
  have smooth : (Settled answers).Smooth (.ok ()) :=
    ⟨fun _ _ => trivial, fun _ => ⟨rfl, rfl⟩, fun _ => ⟨rfl, rfl⟩⟩
  have known (name : String) : (⟨name, metadata, none⟩ : EntryPoint).parameters = .ok parameters :=
    EntryPoint.parameters_toValue _ _ ⟨by decide, by decide, by decide⟩ (by decide)
  -- The name of its first entry, and so the length of this name, tells an archive apart.
  have one : (build.packagedAlone answers files first).map
      (Except.map fun packaged => packaged.archive.bytes[26]?) = .ok (.ok (some 8)) := by
    rw [Build.packagedAlone, Build.package, known]
    decide +kernel
  let after := build.filesAfter answers files first ["p", "a.zip"]
  have two : (build.packagedAlone answers after linked).map
      (Except.map fun packaged => packaged.archive.bytes[26]?) = .ok (.ok (some 9)) := by
    rw [Build.packagedAlone, Build.package, known]
    decide +kernel
  have missing : build.packagedAlone answers files nested =
      .ok (.error (.invalidExecutable ⟨"/p/a.zip/b"⟩ FileError.notFound.message)) := by
    rw [Build.packagedAlone, Build.package, known]
    decide +kernel
  have blocked : build.packagedAlone answers after nested =
      .ok (.error (.invalidExecutable ⟨"/p/a.zip/b"⟩ FileError.notDirectory.message)) := by
    rw [Build.packagedAlone, Build.package, known]
    decide +kernel
  have place : files.target (build.archivePath first) = .ok ["p", "a.zip"] := by decide +kernel
  have shared : after.target (build.archivePath first) = after.target (build.archivePath linked) :=
    by decide +kernel
  obtain ⟨packaged, alone, header⟩ := Build.exists_packaged_of_map one
  obtain ⟨packaged', alone', header'⟩ := Build.exists_packaged_of_map two
  obtain ⟨said, last, trace, replies, stored, stores, changed⟩ :=
    exists_answers_of_packagedAlone alone
  have isAfter : last = after := changed.trans (put_eq_filesAfter alone stores place)
  rw [isAfter] at replies changed
  refine ⟨stays, by decide +kernel, ?_, by decide +kernel, ?_⟩
  · obtain ⟨said', last', trace', replies', stored', stores', changed'⟩ :=
      exists_answers_of_packagedAlone alone'
    apply not_isolated_of_succession smooth stays
      (.cons trace replies (.cons trace' replies' (.nil _)))
      (.cons trace replies (.nil _)) (Or.inr _)
    have overwritten : after.Stores (build.archivePath first) stored' :=
      ⟨shared.trans stores'.target, stores'.free⟩
    rw [changed', overwritten.read_put, changed, stores.read_put]
    intro same
    rw [Except.ok.inj same, header'] at header
    cases header
  · obtain ⟨_, _, failing, fails, rfl⟩ := exists_answers_of_packagedAlone blocked
    obtain ⟨_, _, failingAlone, failsAlone, rfl⟩ := exists_answers_of_packagedAlone missing
    apply not_isolated_of_succession smooth stays
      (.cons trace replies (.cons failing fails (.nil _)))
      (.cons failingAlone failsAlone (.nil _)) (Or.inl _)
    intro same
    have reasons := Outcome.failed.inj (Prod.mk.inj (Option.some.inj same)).2
    exact absurd (Failure.invalidExecutable.inj reasons).2 (by decide)

end Scene

end FunctionBundler
