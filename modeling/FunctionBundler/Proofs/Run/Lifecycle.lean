/-
Module: FunctionBundler.Proofs.Run.Lifecycle
Purpose: The life of a run's environment around its tasks, and what the run reports.
Trusted boundary: none
Main exports:
  Timeline, Scene.Course.timeline, StartedFirst, StoppedLast, Ends, PackagingFailed,
  Scene.Course.of_results?, Scene.Course.parts, Concluded, Scene.trace_lifecycle,
  Scene.exists_over_unreported
-/
import FunctionBundler.Proofs.Entry.Stages
import FunctionBundler.Proofs.Run.Succession

namespace FunctionBundler

/-!
A timeline says what has happened before each phase of the conductor: the environment is
started first; the tasks work only if it did start; it is stopped once, after they have
all ended; and after that the conductor only tells things.  Every turn prolongs the
timeline.  What the run reports is read off its slots, and what stands in a slot follows
from what its task has heard.
-/

/-- The operation that a label asks the environment for. -/
def Label.operation? : Label → Option Operation
  | .exchange _ (.environment operation) _ => some operation
  | _ => none

/-- A label under which the environment is neither started nor stopped. -/
def Label.Quiet (label : Label) : Prop :=
  label.operation? ≠ some .start ∧ label.operation? ≠ some .stop

/-- A label of the conductor that does not concern the environment. -/
def Label.Tells (label : Label) : Prop :=
  label.actor = .conductor ∧ label.operation? = none

/-- Telling what is to be told neither starts nor stops anything. -/
theorem Label.Tells.quiet {label : Label} (tells : label.Tells) : label.Quiet := by
  rw [Label.Quiet, tells.2]
  exact ⟨nofun, nofun⟩

/-- The conductor starts the environment. -/
def startLabel (reply : Reply (Operation.start).Answer) : Label :=
  .exchange .conductor (.environment .start) reply

/-- The conductor stops the environment. -/
def stopLabel (reply : Reply (Operation.stop).Answer) : Label :=
  .exchange .conductor (.environment .stop) reply

/-- An environment that was stopped at once has not started. -/
theorem startLabel_not_mem_of_refused {failure : Failure} {reply : Reply (Operation.stop).Answer}
    {told : List Label} (tells : ∀ label ∈ told, label.Tells) :
    startLabel (.answered (.ok ())) ∉
      startLabel (.answered (.error failure)) :: stopLabel reply :: told := by
  intro started
  rcases List.mem_cons.mp started with same | later
  · cases same
  · rcases List.mem_cons.mp later with same | inTold
    · cases same
    · cases (tells _ inTold).2

/-- The phases between an environment that has started and its end. -/
inductive Phase.Underway : Phase → Prop where
  | heading : Underway .heading
  | working : Underway .working
  | lamenting (abortions : List (String × String)) : Underway (.lamenting abortions)
  | stopping : Underway (.stopping (.ok ()))

/-- The phases after the environment has been stopped. -/
inductive Phase.Past (started : Except Failure Unit) : Phase → Prop where
  | warning (failure : Failure) : Past started (.warning failure started)
  | ended : Past started (.ended started)

/-- The phases that come after all tasks have ended. -/
inductive Phase.Joined : Phase → Prop where
  | lamenting (abortions : List (String × String)) : Joined (.lamenting abortions)
  | stopping : Joined (.stopping (.ok ()))
  | warning (failure : Failure) : Joined (.warning failure (.ok ()))
  | ended : Joined (.ended (.ok ()))

/-- The phases in which the environment has been stopped, or its stop panicked. -/
inductive Phase.Stopped : Phase → Prop where
  | past {started : Except Failure Unit} {phase : Phase} (past : phase.Past started) : Stopped phase
  | crashed : Stopped .crashed

/-- What has happened before a phase. -/
inductive Timeline : List Label → Phase → Prop where
  | starting : Timeline [] .starting
  | underway {later : List Label} {phase : Phase} (quiet : ∀ label ∈ later, label.Quiet)
      (underway : phase.Underway) : Timeline (startLabel (.answered (.ok ())) :: later) phase
  | refused (failure : Failure) :
      Timeline [startLabel (.answered (.error failure))] (.stopping (.error failure))
  | past {before told : List Label} {started answer : Except Failure Unit} {phase : Phase}
      (opening : Timeline before (.stopping started)) (tells : ∀ label ∈ told, label.Tells)
      (past : phase.Past started) :
      Timeline (before ++ stopLabel (.answered answer) :: told) phase
  | startCrashed (cause : String) : Timeline [startLabel (.panicked cause)] .crashed
  | stopCrashed {before : List Label} {started : Except Failure Unit} {cause : String}
      (opening : Timeline before (.stopping started)) :
      Timeline (before ++ [stopLabel (.panicked cause)]) .crashed

/-- Before the environment is stopped, it was started; if it did not start, nothing else
happened. -/
theorem Timeline.of_stopping {labels : List Label} {started : Except Failure Unit}
    (timeline : Timeline labels (.stopping started)) :
    ∃ later, labels = startLabel (.answered started) :: later ∧
      (∀ label ∈ later, label.Quiet) ∧ ∀ failure, started = .error failure → later = [] := by
  generalize same : Phase.stopping started = phase at timeline
  cases timeline with
  | starting | startCrashed | stopCrashed => cases same
  | past _ _ past => cases past <;> cases same
  | underway quiet underway =>
      cases underway with
      | heading | working | lamenting => cases same
      | stopping =>
          cases same
          exact ⟨_, rfl, quiet, nofun⟩
  | refused failure =>
      cases same
      exact ⟨[], rfl, List.forall_mem_nil _, fun _ _ => rfl⟩

/-- Before the environment is started nothing has happened. -/
theorem Timeline.of_starting {labels : List Label} (timeline : Timeline labels .starting) :
    labels = [] := by
  generalize same : Phase.starting = phase at timeline
  cases timeline with
  | starting => rfl
  | refused | startCrashed | stopCrashed => cases same
  | underway _ underway => cases underway <;> cases same
  | past _ _ past => cases past <;> cases same

private theorem Timeline.of_underway {labels : List Label} {phase : Phase}
    (timeline : Timeline labels phase) (underway : phase.Underway) :
    ∃ later, labels = startLabel (.answered (.ok ())) :: later ∧ ∀ label ∈ later, label.Quiet := by
  cases timeline with
  | starting | refused | startCrashed | stopCrashed => cases underway
  | underway quiet => exact ⟨_, rfl, quiet⟩
  | past _ _ past => cases past <;> cases underway

private theorem Timeline.of_past {labels : List Label} {phase : Phase}
    {started : Except Failure Unit} (timeline : Timeline labels phase) (past : phase.Past started) :
    ∃ before answer told, labels = before ++ stopLabel (.answered answer) :: told ∧
      Timeline before (.stopping started) ∧ ∀ label ∈ told, label.Tells := by
  cases timeline with
  | starting | refused | startCrashed | stopCrashed => cases past
  | underway _ underway => cases underway <;> cases past
  | past opening tells was => cases was <;> cases past <;> exact ⟨_, _, _, rfl, opening, tells⟩

/-- What holds of all elements and of another holds of them together. -/
theorem forall_mem_concat {α : Type} {holds : α → Prop} {before : List α} {last : α}
    (all : ∀ element ∈ before, holds element) (also : holds last) :
    ∀ element ∈ before ++ [last], holds element := by
  intro element member
  rcases List.mem_append.mp member with inBefore | isLast
  · exact all element inBefore
  · rwa [List.mem_singleton.mp isLast]

/-- A quiet turn prolongs the timeline of an environment that has started. -/
theorem Timeline.quiet {labels : List Label} {label : Label} {phase next : Phase}
    (timeline : Timeline labels phase) (before : phase.Underway) (after : next.Underway)
    (quiet : label.Quiet) : Timeline (labels ++ [label]) next := by
  obtain ⟨later, rfl, earlier⟩ := timeline.of_underway before
  exact .underway (forall_mem_concat earlier quiet) after

/-- A turn of the conductor prolongs the timeline. -/
theorem Timeline.conducts {labels : List Label} {run : Run} {label : Label} {phase : Phase}
    (timeline : Timeline labels run.phase) (conducts : run.Conducts label phase) :
    Timeline (labels ++ [label]) phase := by
  have tells {event : Event} :
      (Label.exchange .conductor (.announce event) (.answered ())).Tells := ⟨rfl, rfl⟩
  have moves : (Label.moved .conductor).Tells := ⟨rfl, rfl⟩
  cases conducts with
  | started standing =>
      rw [standing] at timeline
      obtain rfl := timeline.of_starting
      exact .underway (List.forall_mem_nil _) .heading
  | notStarted standing failure =>
      rw [standing] at timeline
      obtain rfl := timeline.of_starting
      exact .refused failure
  | startCrashed standing =>
      rw [standing] at timeline
      obtain rfl := timeline.of_starting
      exact .startCrashed _
  | headed standing =>
      rw [standing] at timeline
      exact timeline.quiet .heading .working tells.quiet
  | joined standing =>
      rw [standing] at timeline
      exact timeline.quiet .working (.lamenting _) moves.quiet
  | lamented standing =>
      rw [standing] at timeline
      exact timeline.quiet (.lamenting _) (.lamenting _) tells.quiet
  | consoled standing =>
      rw [standing] at timeline
      exact timeline.quiet (.lamenting _) .stopping moves.quiet
  | stopped standing =>
      rw [standing] at timeline
      exact .past timeline (List.forall_mem_nil _) .ended
  | notStopped standing failure =>
      rw [standing] at timeline
      exact .past timeline (List.forall_mem_nil _) (.warning failure)
  | stopCrashed standing =>
      rw [standing] at timeline
      exact .stopCrashed timeline
  | @warned failure started standing message =>
      rw [standing] at timeline
      obtain ⟨before, answer, told, rfl, opening, earlier⟩ := timeline.of_past (.warning failure)
      rw [List.append_assoc, List.cons_append]
      exact .past opening (forall_mem_concat earlier tells) .ended

/-! ### Runs -/

namespace Scene

variable {build : Build} {permits : Nat} {entries : List EntryPoint} {files : Files}
  {keeps : Scene → Label → Scene → Prop} {labels : List Label} {last : Scene}

/-- A task neither starts nor stops the environment. -/
theorem quiet_of_wants {entry : EntryPoint} {said : List Exchanged} {request : Request}
    (wants : EntryTask.Wants build entry said request) (index : Nat)
    (reply : Reply request.Answer) :
    (Label.exchange (.entry index) request reply).Quiet := by
  cases wants with
  | tells => exact ⟨nofun, nofun⟩
  | packages reaches => cases (Build.asks_of_reaches reaches).1 <;> exact ⟨nofun, nofun⟩
  | reconciles _ _ _ asks =>
      rcases Reconciliation.asks_remotely asks with ⟨_, rfl⟩ | rfl | ⟨_, rfl⟩ <;>
        exact ⟨nofun, nofun⟩

private theorem Course.quiet_of_takes
    (course : Course keeps (start build permits entries files) labels last)
    {index : Nat} {pool : Pool EntryTask}
    {asked : Option ((request : Request) × Reply request.Answer)}
    (takes : last.run.pool.Takes index asked pool) : (Label.ofTask index asked).Quiet := by
  cases asked with
  | none => exact ⟨nofun, nofun⟩
  | some made =>
      obtain ⟨entry, -, wants, -⟩ := course.wants_of_takes takes
      exact quiet_of_wants wants index made.2

/-- What has happened in a run is as its phase says. -/
theorem Course.timeline (course : Course keeps (start build permits entries files) labels last) :
    Timeline labels last.run.phase := by
  induction course with
  | nil => exact .starting
  | @concat labels middle last label course step _ ih =>
      cases moves_of_step step with
      | conductor conducts => exact ih.conducts conducts
      | moved working takes =>
          have quiet := course.quiet_of_takes takes
          rw [working] at ih
          exact working ▸ ih.quiet .working .working quiet
      | exchange working takes =>
          have quiet := course.quiet_of_takes takes
          rw [working] at ih
          exact working ▸ ih.quiet .working .working quiet

/-! ### Before and after -/

/-- The conductor goes on only when every task has ended. -/
theorem Course.results?_ne_none
    (course : Course keeps (start build permits entries files) labels last)
    (joined : last.run.phase.Joined) : last.run.results? ≠ none := by
  induction course with
  | nil => cases joined
  | @concat labels middle last label course step _ ih =>
      cases moves_of_step step with
      | moved working | exchange working =>
          change middle.run.phase.Joined at joined
          rw [working] at joined
          cases joined
      | conductor conducts =>
          change middle.run.results? ≠ none
          change Phase.Joined _ at joined
          cases conducts with
          | started | notStarted | startCrashed | headed | stopCrashed => cases joined
          | joined working ended =>
              rw [ended]
              exact nofun
          | lamented standing | consoled standing =>
              rw [standing] at ih
              exact ih (.lamenting _)
          | stopped standing | notStopped standing =>
              rw [standing] at ih
              cases joined
              exact ih .stopping
          | warned standing =>
              rw [standing] at ih
              cases joined
              exact ih (.warning _)

/-- Once the environment has been stopped, the conductor only tells things. -/
theorem Course.tells_of_stopped {first : Scene} (course : Course keeps first labels last)
    (stopped : first.run.phase.Stopped) :
    last.run.phase.Stopped ∧ last.run.pool = first.run.pool ∧
      last.run.entries = first.run.entries ∧ ∀ label ∈ labels, label.Tells := by
  induction course with
  | nil => exact ⟨stopped, rfl, rfl, List.forall_mem_nil _⟩
  | @concat labels middle last label course step _ ih =>
      obtain ⟨stopped, samePool, sameEntries, tells⟩ := ih
      cases moves_of_step step with
      | moved working | exchange working =>
          rw [working] at stopped
          cases stopped with
          | past past => cases past
      | conductor conducts =>
          cases conducts with
          | warned =>
              exact ⟨.past .ended, samePool, sameEntries, forall_mem_concat tells ⟨rfl, rfl⟩⟩
          | started standing | notStarted standing | startCrashed standing | headed standing
          | joined standing | lamented standing | consoled standing | stopped standing
          | notStopped standing | stopCrashed standing =>
              rw [standing] at stopped
              cases stopped with
              | past past => cases past

end Scene

/-- The environment is started before anything else happens, and never again; no task works unless
it did start. -/
def StartedFirst (labels : List Label) : Prop :=
  labels = [] ∨ ∃ reply later, labels = startLabel reply :: later ∧
    (∀ label ∈ later, label.operation? ≠ some .start) ∧
    (reply ≠ .answered (.ok ()) → ∀ label ∈ later, label.actor = .conductor)

/-- Whenever the environment is stopped, the conductor does it, and for the first time; the
environment did not start and nothing else has happened, or every task has ended; and after that
the conductor only tells things. -/
def StoppedLast (first : Scene) (labels : List Label) : Prop :=
  ∀ before actor reply after,
    labels = before ++ .exchange actor (.environment .stop) reply :: after →
      actor = .conductor ∧ (∀ label ∈ before, label.operation? ≠ some .stop) ∧
      (∀ label ∈ after, label.actor = .conductor ∧ label.operation? = none) ∧
      ((∃ failure, before = [startLabel (.answered (.error failure))]) ∨
        ∃ middle, Scene.Trace first before middle ∧
          ∀ slot ∈ middle.run.pool.slots, Pool.slotResult? slot ≠ none)

private theorem Timeline.startedFirst {labels : List Label} {phase : Phase}
    (timeline : Timeline labels phase) : StartedFirst labels := by
  have opened {before : List Label} {started : Except Failure Unit}
      (opening : Timeline before (.stopping started)) {more : List Label}
      (others : ∀ label ∈ more, label.operation? ≠ some .start ∧ label.actor = .conductor) :
      StartedFirst (before ++ more) := by
    obtain ⟨later, rfl, quiet, refused⟩ := opening.of_stopping
    refine Or.inr ⟨_, later ++ more, rfl, fun label member => ?_, fun failed label member => ?_⟩
    · rcases List.mem_append.mp member with inLater | inMore
      · exact (quiet label inLater).1
      · exact (others label inMore).1
    · cases started with
      | ok => exact absurd rfl failed
      | error failure =>
          obtain rfl := refused failure rfl
          exact (others label member).2
  cases timeline with
  | starting => exact Or.inl rfl
  | underway quiet =>
      exact Or.inr ⟨_, _, rfl, fun label member => (quiet label member).1,
        fun failed => absurd rfl failed⟩
  | refused | startCrashed =>
      exact Or.inr ⟨_, [], rfl, List.forall_mem_nil _, fun _ => List.forall_mem_nil _⟩
  | past opening tells =>
      refine opened opening fun label member => ?_
      rcases List.mem_cons.mp member with rfl | inTold
      · exact ⟨nofun, rfl⟩
      · exact ⟨(tells label inTold).quiet.1, (tells label inTold).1⟩
  | stopCrashed opening =>
      refine opened opening fun label member => ?_
      rw [List.mem_singleton.mp member]
      exact ⟨nofun, rfl⟩

namespace Scene

variable {build : Build} {permits : Nat} {entries : List EntryPoint} {files : Files}
  {keeps : Scene → Label → Scene → Prop} {labels : List Label} {last : Scene}

/-- The environment is stopped from one phase only, and then it stays stopped. -/
theorem stopped_of_step {middle next : Scene} {reply : Reply (Operation.stop).Answer}
    (step : middle.Step (stopLabel reply) next) :
    (∃ started, middle.run.phase = .stopping started) ∧ next.run.phase.Stopped ∧
      next.run.pool = middle.run.pool ∧ next.run.entries = middle.run.entries := by
  generalize asked : stopLabel reply = label at step
  cases moves_of_step step with
  | moved | exchange => cases asked
  | conductor conducts =>
      cases conducts with
      | stopped standing => exact ⟨⟨_, standing⟩, .past .ended, rfl, rfl⟩
      | notStopped standing failure => exact ⟨⟨_, standing⟩, .past (.warning failure), rfl, rfl⟩
      | stopCrashed standing => exact ⟨⟨_, standing⟩, .crashed, rfl, rfl⟩
      | started | notStarted | startCrashed | headed | joined | lamented | consoled | warned =>
          cases asked

private theorem Course.stoppedLast
    (course : Course keeps (start build permits entries files) labels last) :
    StoppedLast (start build permits entries files) labels := by
  intro before actor reply after cut
  subst cut
  obtain ⟨middle, next, early, step, -, since⟩ := course.split_at
  cases actor with
  | entry index =>
      generalize asked : Label.exchange (.entry index) (.environment .stop) reply = label at step
      cases moves_of_step step with
      | moved => cases asked
      | exchange working takes =>
          cases asked
          exact absurd rfl (early.quiet_of_takes takes).2
      | conductor conducts =>
          have conducted := conducts.actor_eq
          rw [← asked] at conducted
          cases conducted
  | conductor =>
      obtain ⟨⟨started, standing⟩, stopped, -⟩ := stopped_of_step step
      have timeline := early.timeline
      rw [standing] at timeline
      obtain ⟨later, rfl, quiet, refused⟩ := timeline.of_stopping
      refine ⟨rfl, fun label member => ?_, (since.tells_of_stopped stopped).2.2.2, ?_⟩
      · rcases List.mem_cons.mp member with rfl | inLater
        · exact nofun
        · exact (quiet label inLater).2
      · cases started with
        | error failure =>
            obtain rfl := refused failure rfl
            exact Or.inl ⟨failure, rfl⟩
        | ok =>
            have joined : middle.run.phase.Joined := by
              rw [standing]
              exact .stopping
            have ended : middle.run.pool.results? ≠ none := fun unfinished =>
              early.results?_ne_none joined (Option.map_eq_none_iff.mpr unfinished)
            exact Or.inr ⟨middle, early.trace, Pool.slotResult?_ne_none ended⟩

end Scene

/-! ### What is reported -/

/-- How the task of an entry point ended: with the outcome of its life, or by a panic. -/
inductive Ends (build : Build) (entry : EntryPoint) (index : Nat) (labels : List Label) :
    Outcome → Prop where
  | account {outcome : Outcome}
      (account : EntryTask.Account build entry (heard index labels) outcome)
      (unharmed : ¬Panics index labels) : Ends build entry index labels outcome
  | panicked {request : Request} {cause : String}
      (panicked : Label.exchange (.entry index) request (.panicked cause) ∈ labels) :
      Ends build entry index labels (.aborted cause)

/-- Packaging an entry point came to a failure. -/
def PackagingFailed (build : Build) (entry : EntryPoint) (heard : List Exchanged) : Prop :=
  ∃ said later failure, heard = told (.packaging entry.fileName) :: said ++ later ∧
    Program.Trace (build.package entry).run said (.error failure)

/-- A whole life ends as a failure exactly if packaging failed. -/
theorem EntryTask.Account.isFailure_iff {build : Build} {entry : EntryPoint}
    {said : List Exchanged} {outcome : Outcome}
    (account : EntryTask.Account build entry said outcome) :
    outcome.isFailure = true ↔ PackagingFailed build entry said := by
  obtain ⟨lived⟩ := account
  have succeeds {packaging later : List Exchanged} {packaged : Packaged}
      (ended : Program.Trace (build.package entry).run packaging (.ok packaged)) :
      ¬PackagingFailed build entry (told (.packaging entry.fileName) :: packaging ++ later) := by
    intro failed
    obtain ⟨said, other, failure, same, trace⟩ := failed
    rw [List.cons_append, List.cons_append, List.cons.injEq] at same
    cases (ended.unique trace same.2).2
  cases lived with
  | @failed packaging failure trace =>
      exact ⟨fun _ => ⟨packaging, _, failure, rfl, trace⟩, fun _ => rfl⟩
  | packaged trace =>
      exact ⟨nofun, fun failed => absurd failed (succeeds trace)⟩
  | deployed trace | deployFailed trace =>
      refine ⟨nofun, fun failed => absurd failed ?_⟩
      rw [List.append_assoc]
      exact succeeds trace

/-- A task ends in failure exactly if packaging failed or it panicked. -/
theorem Ends.isFailure_iff {build : Build} {entry : EntryPoint} {index : Nat}
    {labels : List Label} {outcome : Outcome} (ends : Ends build entry index labels outcome) :
    outcome.isFailure = true ↔
      PackagingFailed build entry (heard index labels) ∨ Panics index labels := by
  cases ends with
  | account account unharmed => rw [account.isFailure_iff, or_iff_left unharmed]
  | panicked panicked => exact ⟨fun _ => Or.inr ⟨_, _, panicked⟩, fun _ => rfl⟩

/-- A slot with a result stands where its task ended. -/
theorem Stands.ends {build : Build} {entry : EntryPoint} {index : Nat} {labels : List Label}
    {slot : Slot EntryTask} {reply : Reply Outcome}
    (stands : Stands build entry index labels (some slot))
    (ended : Pool.slotResult? slot = some reply) :
    Ends build entry index labels (Run.outcomeOf reply) := by
  cases stands with
  | aborted runs asks panicked =>
      cases ended
      exact .panicked panicked
  | @active state runs unharmed =>
      rw [Pool.slotResult?] at ended
      split at ended
      case h_1 outcome step =>
          cases ended
          exact .account (EntryTask.account_of_runs runs step) unharmed
      case h_2 => cases ended

namespace Scene

variable {build : Build} {permits : Nat} {entries : List EntryPoint} {files : Files}
  {keeps : Scene → Label → Scene → Prop} {labels : List Label} {last : Scene}

/-- The results are one for each entry point, in their order, and each is how its task ended. -/
theorem Course.of_results?
    (course : Course keeps (start build permits entries files) labels last)
    {results : List (EntryPoint × Outcome)} (ended : last.run.results? = some results) :
    results.map Prod.fst = entries ∧
      ∀ index entry outcome, results[index]? = some (entry, outcome) →
        entries[index]? = some entry ∧ Ends build entry index labels outcome := by
  obtain ⟨ends, found, rfl⟩ := Option.map_eq_some_iff.mp ended
  have slots := Pool.results?_eq_some_iff.mp found
  rw [course.entries_eq]
  have length : entries.length = (ends.map Run.outcomeOf).length := by
    have counted := congrArg List.length slots
    rw [List.length_map, List.length_map, course.length_slots] at counted
    rw [List.length_map, counted]
  refine ⟨List.map_fst_zip (Nat.le_of_eq length), fun index entry outcome result => ?_⟩
  obtain ⟨there, outcomeThere⟩ := List.getElem?_zip_eq_some.mp result
  refine ⟨there, ?_⟩
  rw [List.getElem?_map] at outcomeThere
  obtain ⟨reply, replyThere, rfl⟩ := Option.map_eq_some_iff.mp outcomeThere
  have same := congrArg (·[index]?) slots
  rw [List.getElem?_map, List.getElem?_map, replyThere] at same
  obtain ⟨slot, slotThere, result⟩ := Option.map_eq_some_iff.mp same
  have stands := course.stands there
  rw [slotThere] at stands
  exact stands.ends result

end Scene

/-- What has become of a run that is over: the start of the environment panicked, and nothing else
happened; or its stop panicked, and nothing is returned; or it did not start, was stopped all the
same, and that failure is what the run returns; or the run reports what stood in its slots before
the environment was stopped, however that was answered. -/
inductive Concluded (build : Build) (entries : List EntryPoint) (first : Scene)
    (labels : List Label) (last : Scene) : Prop where
  | startCrashed {cause : String} (whole : labels = [startLabel (.panicked cause)])
      (silent : last.run.report? = none)
  | stopCrashed {started : Except Failure Unit} {worked : List Label} {cause : String}
      (whole : labels =
        startLabel (.answered started) :: worked ++ [stopLabel (.panicked cause)])
      (refused : ∀ failure, started = .error failure → worked = [])
      (silent : last.run.report? = none)
  | refused {failure : Failure} {answer : Except Failure Unit} {told : List Label}
      (whole : labels =
        startLabel (.answered (.error failure)) :: stopLabel (.answered answer) :: told)
      (tells : ∀ label ∈ told, label.Tells)
      (returns : last.run.report? = some (.error failure))
  | reported {worked told : List Label} {answer : Except Failure Unit} {middle : Scene}
      {report : RunReport}
      (whole : labels = startLabel (.answered (.ok ())) :: worked ++
        stopLabel (.answered answer) :: told)
      (tells : ∀ label ∈ told, label.Tells)
      (before : Scene.Trace first (startLabel (.answered (.ok ())) :: worked) middle)
      (stood : middle.run.results? = some report.results)
      (returns : last.run.report? = some (.ok report))
      (inOrder : report.results.map Prod.fst = entries)
      (ends : ∀ index entry outcome, report.results[index]? = some (entry, outcome) →
        Ends build entry index labels outcome)
      (failures : report.hasFailures = true ↔ ∃ index entry, entries[index]? = some entry ∧
        (PackagingFailed build entry (heard index labels) ∨ Panics index labels))

namespace Scene

variable {build : Build} {permits : Nat} {entries : List EntryPoint} {files : Files}
  {keeps : Scene → Label → Scene → Prop} {labels : List Label} {last : Scene}

/-- A report has failures exactly if packaging failed or somebody panicked. -/
theorem Course.hasFailures_iff
    (course : Course keeps (start build permits entries files) labels last) {report : RunReport}
    (ended : last.run.results? = some report.results) :
    report.hasFailures = true ↔ ∃ index entry, entries[index]? = some entry ∧
      (PackagingFailed build entry (heard index labels) ∨ Panics index labels) := by
  obtain ⟨inOrder, ends⟩ := course.of_results? ended
  rw [RunReport.hasFailures, List.any_eq_true]
  constructor
  · intro failed
    obtain ⟨⟨entry, outcome⟩, member, isFailure⟩ := failed
    obtain ⟨index, there⟩ := List.mem_iff_getElem?.mp member
    obtain ⟨entryThere, ended⟩ := ends index entry outcome there
    exact ⟨index, entry, entryThere, ended.isFailure_iff.mp isFailure⟩
  · intro failed
    obtain ⟨index, entry, entryThere, failed⟩ := failed
    rw [← inOrder, List.getElem?_map] at entryThere
    obtain ⟨⟨entry, outcome⟩, there, rfl⟩ := Option.map_eq_some_iff.mp entryThere
    exact ⟨(entry, outcome), List.mem_of_getElem? there,
      (ends index entry outcome there).2.isFailure_iff.mpr failed⟩

/-- Where the conductor comes to an end when the environment was stopped. -/
def finalPhase (started : Except Failure Unit) : Reply (Operation.stop).Answer → Phase
  | .answered _ => .ended started
  | .panicked _ => .crashed

/-- The parts of a run that is over: the environment panicked when it was to be started, or it was
stopped; at once if it did not start, and otherwise when every task had ended. -/
inductive Parts (keeps : Scene → Label → Scene → Prop) (first : Scene) (labels : List Label)
    (last : Scene) : Prop where
  | crashed {cause : String} (whole : labels = [startLabel (.panicked cause)])
      (standing : last.run.phase = .crashed)
  | stopped {started : Except Failure Unit} {reply : Reply (Operation.stop).Answer}
      {later told : List Label} {middle : Scene}
      (whole : labels = startLabel (.answered started) :: later ++ stopLabel reply :: told)
      (tells : ∀ label ∈ told, label.Tells)
      (refused : ∀ failure, started = .error failure → later = [])
      (before : Course keeps first (startLabel (.answered started) :: later) middle)
      (same : last.run.results? = middle.run.results?)
      (ended : started = .ok () → middle.run.results? ≠ none)
      (standing : last.run.phase = finalPhase started reply)
      (silent : ∀ cause, reply = .panicked cause → told = [])

/-- A run that is over consists of these parts. -/
theorem Course.parts
    (course : Course keeps (start build permits entries files) labels last) (isOver : last.Over) :
    Parts keeps (start build permits entries files) labels last := by
  have stopped {before told : List Label} {started : Except Failure Unit}
      {reply : Reply (Operation.stop).Answer} (whole : labels = before ++ stopLabel reply :: told)
      (opening : Timeline before (.stopping started)) (tells : ∀ label ∈ told, label.Tells)
      (standing : last.run.phase = finalPhase started reply)
      (silent : ∀ cause, reply = .panicked cause → told = []) :
      Parts keeps (start build permits entries files) labels last := by
    obtain ⟨later, rfl, -, refused⟩ := opening.of_stopping
    subst whole
    obtain ⟨middle, next, early, step, -, since⟩ := course.split_at
    obtain ⟨⟨started', stopping⟩, stopped, samePool, sameEntries⟩ := stopped_of_step step
    obtain ⟨-, pool, sameLast, -⟩ := since.tells_of_stopped stopped
    have same : last.run.results? = middle.run.results? := by
      rw [Run.results?, Run.results?, pool, samePool, sameLast, sameEntries]
    refine .stopped rfl tells refused early same (fun isOk => ?_) standing silent
    have timeline := early.timeline
    rw [stopping] at timeline
    obtain ⟨_, opened, -⟩ := timeline.of_stopping
    cases opened
    apply early.results?_ne_none
    rw [stopping, isOk]
    exact .stopping
  have timeline := course.timeline
  rcases course.phase_of_over isOver with standing | ⟨started, standing⟩
  · rw [standing] at timeline
    generalize same : Phase.crashed = phase at timeline
    cases timeline with
    | starting | refused => cases same
    | underway _ underway => cases underway <;> cases same
    | past _ _ past => cases past <;> cases same
    | startCrashed => exact .crashed rfl standing
    | stopCrashed opening =>
        exact stopped rfl opening (List.forall_mem_nil _) standing fun _ _ => rfl
  · rw [standing] at timeline
    obtain ⟨before, answer, told, whole, opening, tells⟩ := timeline.of_past .ended
    exact stopped whole opening tells standing nofun

/-- A run that is over has concluded. -/
theorem Course.concluded
    (course : Course keeps (start build permits entries files) labels last) (isOver : last.Over) :
    Concluded build entries (start build permits entries files) labels last := by
  cases course.parts isOver with
  | crashed whole standing =>
      subst whole
      refine .startCrashed rfl ?_
      rw [Run.report?, standing]
  | @stopped started reply later told middle whole tells refused early same ended standing silent =>
      subst whole
      cases reply with
      | panicked cause =>
          obtain rfl := silent cause rfl
          refine .stopCrashed rfl refused ?_
          rw [Run.report?, standing]
          rfl
      | answered answer =>
          cases started with
          | error failure =>
              obtain rfl := refused failure rfl
              refine .refused rfl tells ?_
              rw [Run.report?, standing]
              rfl
          | ok =>
              obtain ⟨results, stood⟩ := Option.ne_none_iff_exists'.mp (ended rfl)
              obtain ⟨inOrder, ends⟩ := course.of_results? (same.trans stood)
              let report : RunReport := ⟨results⟩
              have returns : last.run.report? = some (.ok report) := by
                rw [Run.report?, standing]
                dsimp only [finalPhase]
                rw [same, stood]
                rfl
              exact .reported rfl tells early.trace stood returns inOrder
                (fun index entry outcome there => (ends index entry outcome there).2)
                (course.hasFailures_iff (same.trans stood))

/-- In every run, whatever the order of turns and whatever is answered or panics: the environment
is started first and stopped last, neither more than once, and in between every task comes to its
end; a run that is over has concluded; and every run comes to be over, unless it is told for ever
that a function is not stable. -/
theorem trace_lifecycle (build : Build) (permits : Nat) (entries : List EntryPoint) (files : Files)
    {labels : List Label} {last : Scene}
    (trace : Scene.Trace (start build permits entries files) labels last) :
    StartedFirst labels ∧
      StoppedLast (start build permits entries files) labels ∧
      (last.Over → Concluded build entries (start build permits entries files) labels last) ∧
      (∃ later finish, Scene.Trace last later finish ∧ finish.Over) ∧
      ∀ (scenes : Nat → Scene) (turns : Nat → Label), scenes 0 = last →
        (∀ turn, (scenes turn).Step (turns turn) (scenes (turn + 1))) →
          ∀ since, ∃ turn, since ≤ turn ∧ (turns turn).Stalls := by
  have course := course_of_trace trace
  obtain ⟨later, finish, more, isOver⟩ := exists_over Habit.live_any last
  exact ⟨course.timeline.startedFirst, course.stoppedLast, course.concluded,
    ⟨later, finish, more.trace, isOver⟩, fun scenes turns _ steps => exists_stalls steps⟩

/-- No panic of the environment itself is taken up: if its start panics it is never stopped, and if
its stop panics nothing is reported.  So it is already where there are no entry points. -/
theorem exists_over_unreported :
    let build : Build := ⟨⟨⟨"/p/app"⟩, ⟨"/p/app.json"⟩, "app", none, ⟨"/p"⟩, none, none, true,
      .x86_64, false, none⟩, none, none, .standard⟩
    let first := start build 1 [] ⟨[], []⟩
    let unstarted := [startLabel (.panicked "lock poisoned")]
    let unstopped := [startLabel (.answered (.ok ())),
      .exchange .conductor (.announce (.heading "Packaging")) (.answered ()), .moved .conductor,
      .moved .conductor, stopLabel (.panicked "lock poisoned")]
    (∃ last, Scene.Trace first unstarted last ∧ last.Over ∧ last.run.report? = none ∧
        ∀ reply, stopLabel reply ∉ unstarted) ∧
      ∃ last, Scene.Trace first unstopped last ∧ last.Over ∧ last.run.report? = none := by
  intro build first unstarted unstopped
  let scene (phase : Phase) : Scene := ⟨⟨[], phase, ⟨1, []⟩⟩, ⟨[], []⟩⟩
  have isOver : (scene .crashed).Over := fun actor => by cases actor <;> rfl
  have asks {phase next : Phase} {request : Request} {reply : Reply request.Answer}
      {resume : Reply request.Answer → Run}
      (turn : (scene phase).run.conductorTurn = some (.asked request resume))
      (goesOn : resume reply = (scene next).run)
      (reacts : Reacts ⟨[], []⟩ request reply ⟨[], []⟩) :
      (scene phase).Step (.exchange .conductor request reply) (scene next) := by
    have step := @Step.exchange (scene phase) .conductor request resume reply _ turn reacts
    rw [goesOn] at step
    exact step
  have starts (reply : Reply (Operation.start).Answer) := Reacts.environment ⟨[], []⟩ .start reply
  have stops (reply : Reply (Operation.stop).Answer) := Reacts.environment ⟨[], []⟩ .stop reply
  refine ⟨⟨scene .crashed, .cons (asks rfl rfl (starts _)) (.nil _), isOver, rfl, ?_⟩,
    scene .crashed, ?_, isOver, rfl⟩
  · intro reply member
    cases List.mem_singleton.mp member
  · have opened : (scene .starting).Step (startLabel (.answered (.ok ()))) (scene .heading) :=
      asks rfl rfl (starts _)
    have headed : (scene .heading).Step
        (.exchange .conductor (.announce (.heading "Packaging")) (.answered ()))
        (scene .working) := asks rfl rfl (.announce _ _)
    have joined : (scene .working).Step (.moved .conductor) (scene (.lamenting [])) := .moved rfl
    have consoled : (scene (.lamenting [])).Step (.moved .conductor)
        (scene (.stopping (.ok ()))) := .moved rfl
    have crashed : (scene (.stopping (.ok ()))).Step (stopLabel (.panicked "lock poisoned"))
        (scene .crashed) := asks rfl rfl (stops _)
    exact .cons opened (.cons headed (.cons joined (.cons consoled (.cons crashed (.nil _)))))

/-- An entry point without metadata, in an environment that cannot be stopped. -/
theorem trace_lifecycle_malformed :
    let build : Build := ⟨⟨⟨"/p/app"⟩, ⟨"/p/app.json"⟩, "app", none, ⟨"/p"⟩, none, none, true,
      .x86_64, false, none⟩, none, none, .standard⟩
    let entry : EntryPoint := ⟨"handler", "", none⟩
    let first := start build 1 [entry] ⟨[], []⟩
    ∃ labels last, Scene.Trace first labels last ∧ Concluded build [entry] first labels last ∧
      ∃ report, last.run.report? = some (.ok report) ∧ report.hasFailures = true := by
  intro build entry first
  have malformed : entry.parameters.isOk = false := by decide +kernel
  obtain ⟨fault, malformed⟩ := exists_eq_error_of_isOk malformed
  let outcome : Outcome := .failed (.metadata fault)
  let habit : Habit := fun _ _ _ _ => True
  have smooth : habit.Smooth (.error .notStarted) :=
    ⟨fun _ _ => trivial, fun _ => trivial, fun _ => trivial⟩
  have succession : Succession habit build ⟨[], []⟩ [(entry, outcome)] ⟨[], []⟩ :=
    .cons (Build.trace_package_of_malformed malformed) (.nil _) (.nil _)
  obtain ⟨labels, last, course, isOver, -, returns, -⟩ :=
    exists_course_of_succession smooth (fun _ => rfl) succession 1
  have concluded := (trace_lifecycle build 1 [entry] _ course.trace).2.2.1 isOver
  exact ⟨labels, last, course.trace, concluded, ⟨[(entry, outcome)]⟩, returns, rfl⟩

end Scene

end FunctionBundler
