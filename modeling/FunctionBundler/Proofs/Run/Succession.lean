/-
Module: FunctionBundler.Proofs.Run.Succession
Purpose: Runs in which a task does what it can do by itself, and runs of one task after the other.
Trusted boundary: none
Main exports:
  Answers, exists_answers_of_packagedAlone, Scene.course_of_runs, Succession,
  Scene.exists_course_of_opening, Scene.exists_course_of_succession
-/
import FunctionBundler.Proofs.Run.Termination

namespace FunctionBundler

/-!
One of the orders in which the tasks of a run can work is that of the manifest, each
task coming to its end before the next one begins.  So whatever packaging can be
answered, entry point after entry point, by surroundings that keep to some habit, can
happen in a run.
-/

/-- Surroundings answer requests one after the other, in keeping with a habit. -/
inductive Answers (habit : Habit) : Files → List Exchanged → Files → Prop where
  | nil (files : Files) : Answers habit files [] files
  | cons {files middle last : Files} {request : Request} {answer : request.Answer}
      {rest : List Exchanged} (reacts : Reacts files request (.answered answer) middle)
      (kept : habit files request (.answered answer) middle)
      (later : Answers habit middle rest last) :
      Answers habit files (⟨request, answer⟩ :: rest) last

/-- Answers can be continued. -/
theorem Answers.append {habit : Habit} {files middle last : Files} {before after : List Exchanged}
    (one : Answers habit files before middle) (two : Answers habit middle after last) :
    Answers habit files (before ++ after) last := by
  induction one with
  | nil => exact two
  | cons reacts kept _ ih => exact .cons reacts kept (ih two)

section Alone

variable {answers : FixedAnswers} {files : Files} {build : Build} {entry : EntryPoint}

/-- What surroundings reply that never change, settled ones reply; a write may change the files. -/
theorem reacts_of_reply {request : Request} {answer : request.Answer}
    (replied : answers.reply files request = .answered answer) :
    ∃ after, Reacts files request (.answered answer) after ∧
      Settled answers files request (.answered answer) after ∧
      ((∀ path content,
          (⟨request, answer⟩ : Exchanged) ≠ ⟨.access (.write path content), .ok ()⟩) →
        after = files) := by
  cases request with
  | environment operation =>
      exact ⟨files, .environment files operation _, ⟨replied.symm, rfl⟩, fun _ => rfl⟩
  | announce event => exact ⟨files, .announce files event, trivial, fun _ => rfl⟩
  | clock => exact ⟨files, .clock files answer, trivial, fun _ => rfl⟩
  | sleep duration => exact ⟨files, .sleep files duration, trivial, fun _ => rfl⟩
  | call made => cases replied
  | access wanted =>
      cases replied
      refine ⟨_, .access files wanted, trivial, fun unwritten => ?_⟩
      cases wanted with
      | present | inspect | read => rfl
      | write path content =>
          have other := unwritten path content
          rw [Files.answer] at other ⊢
          cases written : files.write path content with
          | error fault => rfl
          | ok changed =>
              rw [written] at other
              exact absurd rfl other

private theorem answers_of_replied {said : List Exchanged}
    (replied : ∀ exchange ∈ said, answers.reply files exchange.1 = .answered exchange.2)
    (unwritten : ∀ path content,
      (⟨.access (.write path content), .ok ()⟩ : Exchanged) ∉ said) :
    Answers (Settled answers) files said files := by
  induction said with
  | nil => exact .nil files
  | cons exchange later ih =>
      obtain ⟨now, repliedLater⟩ := List.forall_mem_cons.mp replied
      obtain ⟨after, reacts, kept, same⟩ := reacts_of_reply now
      have unchanged : after = files := by
        apply same
        intro path content written
        apply unwritten path content
        rw [← written]
        exact List.mem_cons_self
      subst unchanged
      exact .cons reacts kept (ih repliedLater fun path content member =>
        unwritten path content (List.mem_cons_of_mem _ member))

/-- What packaging comes to where nothing changes, it comes to in settled surroundings, and then its
archive is where it belongs. -/
theorem exists_answers_of_packagedAlone {result : Except Failure Packaged}
    (alone : build.packagedAlone answers files entry = .ok result) :
    ∃ said last, Program.Trace (build.package entry).run said result ∧
      Answers (Settled answers) files said last ∧
      match result with
      | .ok packaged => ∃ place, files.Stores (build.archivePath entry) place ∧
          last = files.put place (.file packaged.archive.bytes)
      | .error _ => last = files := by
  obtain ⟨said, journey, replied⟩ := Build.exists_journey_of_packagedAlone alone
  have trace := Build.trace_package_iff.mpr journey
  cases result with
  | error failure =>
      exact ⟨said, files, trace, answers_of_replied replied journey.unwritten_of_error, rfl⟩
  | ok packaged =>
      obtain ⟨before, rfl, unwritten, -⟩ := journey.of_ok nofun
      obtain ⟨repliedBefore, repliedLast⟩ := List.forall_mem_append.mp replied
      have earlier := answers_of_replied repliedBefore fun path content member =>
        unwritten _ member ⟨path, content, rfl⟩
      have written : (files.answer
          (.write (build.archivePath entry) packaged.archive.bytes)).1 = .ok () :=
        Reply.answered.inj (repliedLast _ List.mem_cons_self)
      obtain ⟨place, stores, changed⟩ := Files.exists_stores_of_answer written
      refine ⟨_, files.put place (.file packaged.archive.bytes), trace, earlier.append ?_,
        place, stores, rfl⟩
      have reacts := Reacts.access files
        (.write (build.archivePath entry) packaged.archive.bytes)
      rw [written, changed] at reacts
      exact .cons reacts trivial (.nil _)

/-- The content of the archive that packaging an entry point comes to where nothing changes. -/
def Build.contentAlone (build : Build) (answers : FixedAnswers) (files : Files)
    (entry : EntryPoint) : Bytes :=
  ((build.packagedAlone answers files entry).toOption.bind Except.toOption).elim [] fun packaged =>
    packaged.archive.bytes

/-- The files after an entry point was packaged by itself, with its archive at a place. -/
def Build.filesAfter (build : Build) (answers : FixedAnswers) (files : Files) (entry : EntryPoint)
    (place : List String) : Files :=
  files.put place (.file (build.contentAlone answers files entry))

/-- What an entry point leaves behind when it is packaged alone. -/
theorem put_eq_filesAfter {packaged : Packaged} {place other : List String}
    (alone : build.packagedAlone answers files entry = .ok (.ok packaged))
    (stores : files.Stores (build.archivePath entry) other)
    (lies : files.target (build.archivePath entry) = .ok place) :
    files.put other (.file packaged.archive.bytes) =
      build.filesAfter answers files entry place := by
  have content : build.contentAlone answers files entry = packaged.archive.bytes := by
    rw [Build.contentAlone, alone]
    rfl
  rw [Build.filesAfter, content, Except.ok.inj (stores.target.symm.trans lies)]

end Alone

/-- The outcome of packaging in a run that does not deploy. -/
def Outcome.ofPackaging : Except Failure Packaged → Outcome
  | .ok result => .packaged (Archive.pathFor result.executable) result.archive.size
  | .error failure => .failed failure

/-- Entry points are packaged one after the other, with these outcomes. -/
inductive Succession (habit : Habit) (build : Build) :
    Files → List (EntryPoint × Outcome) → Files → Prop where
  | nil (files : Files) : Succession habit build files [] files
  | cons {files middle last : Files} {entry : EntryPoint} {said : List Exchanged}
      {result : Except Failure Packaged} {later : List (EntryPoint × Outcome)}
      (trace : Program.Trace (build.package entry).run said result)
      (answers : Answers habit files said middle)
      (rest : Succession habit build middle later last) :
      Succession habit build files ((entry, .ofPackaging result) :: later) last

/-- A habit of telling whatever is to be told, and of an environment that starts and whose stop is
answered. -/
structure Habit.Smooth (habit : Habit) (stopped : Except Failure Unit) : Prop where
  announce : ∀ files event, habit files (.announce event) (.answered ()) files
  start : ∀ files, habit files (.environment .start) (.answered (.ok ())) files
  stop : ∀ files, habit files (.environment .stop) (.answered stopped) files

/-- Something can be told before other answers. -/
theorem Answers.announce {habit : Habit} {stopped : Except Failure Unit} {files last : Files}
    {said : List Exchanged} (smooth : habit.Smooth stopped) (event : Event)
    (answers : Answers habit files said last) :
    Answers habit files (told event :: said) last :=
  .cons (.announce files event) (smooth.announce files event) answers

namespace Scene

variable {habit : Habit} {stopped : Except Failure Unit} {build : Build} {entry : EntryPoint}
  {entries : List EntryPoint} {free : Nat} {before after : List (Slot EntryTask)}
  {files last : Files}

/-- A scene in which the tasks work. -/
def working (entries : List EntryPoint) (free : Nat) (slots : List (Slot EntryTask))
    (files : Files) : Scene :=
  ⟨⟨entries, .working, ⟨free, slots⟩⟩, files⟩

private theorem set_middle {α : Type} (before after : List α) (old new : α) :
    (before ++ old :: after).set before.length new = before ++ new :: after := by
  rw [List.set_append_right _ _ (Nat.le_refl _), Nat.sub_self, List.set_cons_zero]

private theorem getElem?_middle {α : Type} (before after : List α) (middle : α) :
    (before ++ middle :: after)[before.length]? = some middle := by
  rw [List.getElem?_append_right (Nat.le_refl _), Nat.sub_self]
  rfl

/-- A task asks in its turn and is answered. -/
theorem step_of_ask {task : EntryTask} {request : Request} {resume : request.Answer → EntryTask}
    {answer : request.Answer} (asks : Task.step task = .ask request resume)
    (reacts : Reacts files request (.answered answer) last) :
    (working entries free (before ++ .active task :: after) files).Step
      (.exchange (.entry before.length) request (.answered answer))
      (working entries free (before ++ .active (resume answer) :: after) last) := by
  let pool : Pool EntryTask := ⟨free, before ++ .active task :: after⟩
  have active : pool.slots[before.length]? = some (.active task) := getElem?_middle _ _ _
  obtain ⟨goesOn, turn, next⟩ : ∃ goesOn,
      Run.turn ⟨entries, .working, pool⟩ (.entry before.length) = some (.asked request goesOn) ∧
        goesOn (.answered answer) =
          ⟨entries, .working, pool.put before.length (.active (resume answer))⟩ := by
    rw [Run.turn, Pool.turn, active]
    dsimp only
    rw [asks]
    exact ⟨_, rfl, rfl⟩
  have step := @Scene.Step.exchange ⟨⟨entries, .working, pool⟩, files⟩ _ _ _ (.answered answer)
    last turn reacts
  rw [next, Pool.put, set_middle] at step
  exact step

/-- A task takes a permit in its turn. -/
theorem step_of_acquire {task next : EntryTask} (acquires : Task.step task = .acquire next) :
    (working entries (free + 1) (before ++ .active task :: after) files).Step
      (.moved (.entry before.length))
      (working entries free (before ++ .active next :: after) files) := by
  let pool : Pool EntryTask := ⟨free + 1, before ++ .active task :: after⟩
  have active : pool.slots[before.length]? = some (.active task) := getElem?_middle _ _ _
  have turn : Run.turn ⟨entries, .working, pool⟩ (.entry before.length) = some (.moved
      ⟨entries, .working, { pool.put before.length (.active next) with free }⟩) := by
    rw [Run.turn, Pool.turn, active]
    dsimp only
    rw [acquires]
    rfl
  have step := @Scene.Step.moved ⟨⟨entries, .working, pool⟩, files⟩ _ _ turn
  rw [Pool.put, set_middle] at step
  exact step

/-- A task gives its permit back in its turn. -/
theorem step_of_release {task next : EntryTask} (releases : Task.step task = .release next) :
    (working entries free (before ++ .active task :: after) files).Step
      (.moved (.entry before.length))
      (working entries (free + 1) (before ++ .active next :: after) files) := by
  let pool : Pool EntryTask := ⟨free, before ++ .active task :: after⟩
  have active : pool.slots[before.length]? = some (.active task) := getElem?_middle _ _ _
  have turn : Run.turn ⟨entries, .working, pool⟩ (.entry before.length) = some (.moved
      ⟨entries, .working, { pool.put before.length (.active next) with free := free + 1 }⟩) := by
    rw [Run.turn, Pool.turn, active]
    dsimp only
    rw [releases]
    rfl
  have step := @Scene.Step.moved ⟨⟨entries, .working, pool⟩, files⟩ _ _ turn
  rw [Pool.put, set_middle] at step
  exact step

/-- The permits that are free when some are spare and one is left for a task, unless it has it. -/
def freeBeside (spare : Nat) (task : EntryTask) : Nat :=
  if Task.holdsPermit task then spare else spare + 1

/-- What a task does by itself, it can do in a run, as long as one permit is left for it; this is
what it hears then. -/
theorem course_of_runs {task next : EntryTask} {said : List Exchanged}
    (runs : Task.Runs task said next) (answers : Answers habit files said last) (spare : Nat) :
    ∃ labels, Course (Under habit)
        (working entries (freeBeside spare task) (before ++ .active task :: after) files) labels
        (working entries (freeBeside spare next) (before ++ .active next :: after) last) ∧
      heard before.length labels = said := by
  induction runs generalizing files with
  | here =>
      cases answers
      exact ⟨[], .nil, rfl⟩
  | @ask task next request resume rest asks answer _ ih =>
      cases answers with
      | cons reacts kept later =>
          obtain ⟨labels, course, hears⟩ := ih later
          have sameFree : freeBeside spare (resume answer) = freeBeside spare task := by
            rw [freeBeside, freeBeside, Task.careful_of_step asks answer]
          rw [sameFree] at course
          have step := @step_of_ask entries (freeBeside spare task) before after _ _ _ _ _ answer
            asks reacts
          have now : heard before.length [.exchange (.entry before.length) request
              (.answered answer)] = [⟨request, answer⟩] :=
            List.filterMap_cons_some (if_pos rfl)
          exact ⟨_, (Course.nil.concat step kept).append course,
            (heard_append _ _ _).trans (congrArg₂ _ now hears)⟩
  | @acquire task middle next rest acquires _ ih =>
      obtain ⟨labels, course, hears⟩ := ih answers
      obtain ⟨without, holds⟩ := Task.careful_of_step acquires
      have step := @step_of_acquire entries spare before after files _ _ acquires
      have more : freeBeside spare task = spare + 1 := if_neg ((Bool.not_eq_true _).mpr without)
      have less : freeBeside spare middle = spare := if_pos holds
      rw [more]
      rw [less] at course
      exact ⟨_, (Course.nil.concat step trivial).append course, hears⟩
  | @release task middle next rest releases _ ih =>
      obtain ⟨labels, course, hears⟩ := ih answers
      obtain ⟨holds, without⟩ := Task.careful_of_step releases
      have step := @step_of_release entries spare before after files _ _ releases
      have less : freeBeside spare task = spare := if_pos holds
      have more : freeBeside spare middle = spare + 1 := if_neg ((Bool.not_eq_true _).mpr without)
      rw [less]
      rw [more] at course
      exact ⟨_, (Course.nil.concat step trivial).append course, hears⟩

/-- A task packages as packaging goes. -/
theorem runs_of_trace {rest : Talk (Except Failure Packaged)} {said : List Exchanged}
    {result : Except Failure Packaged} (trace : Program.Trace rest said result) :
    Task.Runs (⟨build, entry, .packaging rest⟩ : EntryTask) said
      ⟨build, entry, .packaging (.done result)⟩ := by
  induction trace with
  | done => exact .here _
  | ask answer _ ih => exact .ask rfl answer ih

private theorem step_packaging_done (stays : ∀ packaged, build.deployment? packaged = none)
    (result : Except Failure Packaged) :
    Task.step (⟨build, entry, .packaging (.done result)⟩ : EntryTask) =
      .ask (.announce ((Outcome.ofPackaging result).event entry.fileName)) fun _ =>
        ⟨build, entry, .ended (.ofPackaging result)⟩ := by
  cases result with
  | error failure => rfl
  | ok packaged =>
      change EntryTask.afterPackaging _ (.ok packaged) = _
      rw [EntryTask.afterPackaging, stays]
      rfl

/-- A task that does not deploy begins, packages and tells how it ended. -/
theorem runs_of_packaging (stays : ∀ packaged, build.deployment? packaged = none)
    {said : List Exchanged} {result : Except Failure Packaged}
    (trace : Program.Trace (build.package entry).run said result) :
    Task.Runs (EntryTask.start build entry)
      (told (.packaging entry.fileName) ::
        (said ++ [told ((Outcome.ofPackaging result).event entry.fileName)]))
      ⟨build, entry, .ended (.ofPackaging result)⟩ := by
  have tells : Task.Runs (⟨build, entry, .packaging (.done result)⟩ : EntryTask)
      [told ((Outcome.ofPackaging result).event entry.fileName)]
      ⟨build, entry, .ended (.ofPackaging result)⟩ :=
    .ask (step_packaging_done stays result) () (.here _)
  have begins : Task.step (EntryTask.start build entry) =
      .ask (.announce (.packaging entry.fileName)) fun _ =>
        ⟨build, entry, .packaging (build.package entry).run⟩ := rfl
  exact .ask begins () ((runs_of_trace trace).append tells)

/-- A task works from its beginning to its end. -/
theorem course_of_packaging (smooth : habit.Smooth stopped)
    (stays : ∀ packaged, build.deployment? packaged = none) {said : List Exchanged}
    {result : Except Failure Packaged} (trace : Program.Trace (build.package entry).run said result)
    (answers : Answers habit files said last) (spare : Nat) :
    ∃ labels, Course (Under habit)
        (working entries (spare + 1) (before ++ .active (.start build entry) :: after) files) labels
        (working entries (spare + 1)
          (before ++ .active ⟨build, entry, .ended (.ofPackaging result)⟩ :: after) last) ∧
      heard before.length labels = told (.packaging entry.fileName) ::
        (said ++ [told ((Outcome.ofPackaging result).event entry.fileName)]) :=
  course_of_runs (runs_of_packaging stays trace)
    (.announce smooth _ (answers.append (.announce smooth _ (.nil last)))) spare

/-- The tasks work one after the other. -/
theorem course_of_succession (smooth : habit.Smooth stopped)
    (stays : ∀ packaged, build.deployment? packaged = none) {results : List (EntryPoint × Outcome)}
    (succession : Succession habit build files results last) (spare : Nat)
    (before : List (Slot EntryTask)) :
    ∃ labels, Course (Under habit)
      (working entries (spare + 1)
        (before ++ results.map fun result => .active (.start build result.1)) files) labels
      (working entries (spare + 1)
        (before ++ results.map fun result => .active ⟨build, result.1, .ended result.2⟩) last) := by
  induction succession generalizing before with
  | nil => exact ⟨[], .nil⟩
  | @cons files middle last entry said result later trace answers _ ih =>
      obtain ⟨labels, one, -⟩ := @course_of_packaging habit stopped build entry entries before
        (later.map fun result => .active (.start build result.1)) files middle smooth stays said
        result trace answers spare
      obtain ⟨others, two⟩ := ih (before ++ [.active ⟨build, entry, .ended (.ofPackaging result)⟩])
      rw [List.append_assoc, List.append_assoc] at two
      exact ⟨_, one.append two⟩

end Scene

/-- In a succession nobody panics. -/
theorem Succession.panic?_eq_none {habit : Habit} {build : Build} {files last : Files}
    {results : List (EntryPoint × Outcome)}
    (succession : Succession habit build files results last) :
    ∀ result ∈ results, result.2.panic? = none := by
  induction succession with
  | nil => exact List.forall_mem_nil _
  | @cons files middle last entry said result later _ _ _ ih =>
      intro other member
      rcases List.mem_cons.mp member with rfl | inLater
      · cases result <;> rfl
      · exact ih other inLater

/-- What a run reports when all its tasks have ended with outcomes. -/
theorem Run.results?_of_ended {build : Build} {results : List (EntryPoint × Outcome)}
    {phase : Phase} {free : Nat} :
    Run.results? ⟨results.map Prod.fst, phase, ⟨free,
      results.map fun result => .active ⟨build, result.1, .ended result.2⟩⟩⟩ = some results := by
  let slots : List (Slot EntryTask) :=
    results.map fun result => .active ⟨build, result.1, .ended result.2⟩
  have ended : Pool.results? (⟨free, slots⟩ : Pool EntryTask) =
      some (results.map fun result => .answered result.2) := by
    rw [Pool.results?_eq_some_iff, List.map_map, List.map_map]
    rfl
  change (Pool.results? (⟨free, slots⟩ : Pool EntryTask)).map _ = _
  rw [ended, Option.map_some, List.map_map, List.zip_map']
  exact congrArg some (List.map_id' results)

/-- The environment starts, and the tasks can work. -/
theorem Scene.exists_course_of_opening {habit : Habit} {stopped : Except Failure Unit}
    (smooth : habit.Smooth stopped) (build : Build) (permits : Nat) (entries : List EntryPoint)
    (files : Files) :
    ∃ labels, Course (Under habit) (start build permits entries files) labels
      (working entries (max permits 1) (entries.map fun entry => .active (.start build entry))
        files) := by
  let scene (phase : Phase) : Scene := ⟨⟨entries, phase, ⟨max permits 1,
    entries.map fun entry => .active (.start build entry)⟩⟩, files⟩
  have beginning : start build permits entries files = scene .starting := by
    rw [Scene.start, Run.start, Pool.start, List.map_map]
    rfl
  have opens : (scene .starting).Step
      (.exchange .conductor (.environment .start) (.answered (.ok ()))) (scene .heading) :=
    @Step.exchange (scene .starting) .conductor (.environment .start) _
      (.answered (.ok ())) _ rfl (.environment _ .start (.answered (.ok ())))
  have heads : (scene .heading).Step
      (.exchange .conductor (.announce (.heading "Packaging")) (.answered ()))
      (scene .working) :=
    @Step.exchange (scene .heading) .conductor (.announce (.heading "Packaging")) _
      (.answered ()) _ rfl (.announce _ _)
  rw [beginning]
  exact
    ⟨_, (Course.nil.concat opens (smooth.start files)).concat heads (smooth.announce files _)⟩

/-- A run in which the entry points are packaged one after the other, from beginning to end. -/
theorem Scene.exists_course_of_succession {habit : Habit} {stopped : Except Failure Unit}
    {build : Build} {files last : Files} {results : List (EntryPoint × Outcome)}
    (smooth : habit.Smooth stopped)
    (stays : ∀ packaged, build.deployment? packaged = none)
    (succession : Succession habit build files results last) (permits : Nat) :
    ∃ labels finish,
      Course (Under habit) (start build permits (results.map Prod.fst) files) labels finish ∧
        finish.Over ∧ finish.run.results? = some results ∧
        finish.run.report? = some (.ok ⟨results⟩) ∧ finish.files = last := by
  let entries := results.map Prod.fst
  let spare := max permits 1 - 1
  let free := spare + 1
  let ended : List (Slot EntryTask) :=
    results.map fun result => .active ⟨build, result.1, .ended result.2⟩
  let scene (phase : Phase) (slots : List (Slot EntryTask)) (files : Files) : Scene :=
    ⟨⟨entries, phase, ⟨free, slots⟩⟩, files⟩
  have oneAtLeast : max permits 1 = free :=
    (Nat.sub_add_cancel (Nat.le_max_right permits 1)).symm
  obtain ⟨first, prepares⟩ := exists_course_of_opening smooth build permits entries files
  rw [List.map_map, oneAtLeast] at prepares
  obtain ⟨labels, works⟩ := @course_of_succession habit stopped build entries files last
    smooth stays results succession spare []
  have joins : (scene .working ended last).Step (.moved .conductor)
      (scene (.lamenting []) ended last) := by
    have turn : (scene .working ended last).run.conductorTurn =
        some (.moved ⟨entries, .lamenting (Run.abortions results), ⟨free, ended⟩⟩) := by
      change (Run.results? ⟨entries, .working, ⟨free, ended⟩⟩).map _ = _
      rw [Run.results?_of_ended]
      rfl
    have none : Run.abortions results = [] := by
      rw [Run.abortions, List.filterMap_eq_nil_iff]
      intro result member
      rw [succession.panic?_eq_none result member, Option.map_none]
    rw [none] at turn
    exact .moved turn
  have settles : (scene (.lamenting []) ended last).Step (.moved .conductor)
      (scene (.stopping (.ok ())) ended last) := .moved rfl
  have worked := ((prepares.append works).concat joins trivial).concat settles trivial
  have isOver : (scene (.ended (.ok ())) ended last).Over := fun actor => by cases actor <;> rfl
  have returns : (scene (.ended (.ok ())) ended last).run.report? = some (.ok ⟨results⟩) := by
    change (Run.results? ⟨entries, .ended (.ok ()), ⟨free, ended⟩⟩).map _ = _
    rw [Run.results?_of_ended]
    rfl
  cases stopped with
  | ok =>
      have stops : (scene (.stopping (.ok ())) ended last).Step
          (.exchange .conductor (.environment .stop) (.answered (.ok ())))
          (scene (.ended (.ok ())) ended last) :=
        @Step.exchange (scene (.stopping (.ok ())) ended last) .conductor (.environment .stop) _
          (.answered (.ok ())) _ rfl (.environment _ .stop (.answered (.ok ())))
      exact
        ⟨_, _, worked.concat stops (smooth.stop last), isOver, Run.results?_of_ended, returns, rfl⟩
  | error failure =>
      let message := s!"failed to stop build environment: {failure.message}"
      have stops : (scene (.stopping (.ok ())) ended last).Step
          (.exchange .conductor (.environment .stop) (.answered (.error failure)))
          (scene (.warning failure (.ok ())) ended last) :=
        @Step.exchange (scene (.stopping (.ok ())) ended last) .conductor (.environment .stop) _
          (.answered (.error failure)) _ rfl (.environment _ .stop (.answered (.error failure)))
      have warns : (scene (.warning failure (.ok ())) ended last).Step
          (.exchange .conductor (.announce (.warning message)) (.answered ()))
          (scene (.ended (.ok ())) ended last) :=
        @Step.exchange (scene (.warning failure (.ok ())) ended last) .conductor
          (.announce (.warning message)) _ (.answered ()) _ rfl (.announce _ _)
      have whole := (worked.concat stops (smooth.stop last)).concat warns (smooth.announce last _)
      exact ⟨_, _, whole, isOver, Run.results?_of_ended, returns, rfl⟩

end FunctionBundler
