/-
Module: FunctionBundler.Proofs.Run.Announcements
Purpose: What is told in a run, by whom and in which order.
Trusted boundary: none
Main exports:
  announcements, announced, ByTasks, Chronicle, Scene.Course.chronicle, Telling,
  Scene.Course.exists_telling
-/
import FunctionBundler.Proofs.Run.Packaging

namespace FunctionBundler

/-!
A task tells about itself while it goes on, and it tells its end unless a panic is its
end.  Then the conductor tells it in its place, when all tasks have ended, in the order
of the entry points.  So a run tells its heading, then what the tasks tell, in any order,
then these ends, and at last perhaps that the environment did not stop.  A chronicle
says this of each phase, and every turn prolongs it.
-/

/-! ### What is told -/

/-- What is told under a label, and by whom. -/
def Label.announcement? : Label → Option (Actor × Event)
  | .exchange actor (.announce event) (.answered _) => some (actor, event)
  | _ => none

/-- What is told in a run, and by whom, in the order of time. -/
def announcements (labels : List Label) : List (Actor × Event) :=
  labels.filterMap Label.announcement?

private theorem announcements_append (before after : List Label) :
    announcements (before ++ after) = announcements before ++ announcements after :=
  List.filterMap_append

private theorem announcements_concat_of_none {label : Label} (silent : label.announcement? = none)
    (labels : List Label) : announcements (labels ++ [label]) = announcements labels := by
  rw [announcements_append, announcements, announcements, List.filterMap_cons_none silent,
    List.filterMap_nil, List.append_nil]

private theorem announcements_concat_of_some {label : Label} {item : Actor × Event}
    (tells : label.announcement? = some item) (labels : List Label) :
    announcements (labels ++ [label]) = announcements labels ++ [item] := by
  rw [announcements_append, announcements, announcements, List.filterMap_cons_some tells,
    List.filterMap_nil]

/-- The conductor tells that packaging begins. -/
def headed : Actor × Event :=
  (.conductor, .heading "Packaging")

/-- The conductor tells the end of a task that a panic ended: the file name of its entry point, and
the cause of the panic. -/
def lament (abortion : String × String) : Actor × Event :=
  (.conductor, (Outcome.aborted abortion.2).event abortion.1)

/-- Only tasks tell these. -/
def ByTasks (told : List (Actor × Event)) : Prop :=
  ∀ item ∈ told, ∃ index, item.1 = .entry index

/-! ### What tasks tell -/

/-- What is told in an exchange. -/
def announced? : Exchanged → Option Event
  | ⟨.announce event, _⟩ => some event
  | _ => none

/-- What a task tells in its exchanges. -/
def announced (said : List Exchanged) : List Event :=
  said.filterMap announced?

/-- What is announced in two parts is announced in the first and then in the second. -/
theorem announced_append (before after : List Exchanged) :
    announced (before ++ after) = announced before ++ announced after :=
  List.filterMap_append

/-- An event that is told is announced. -/
theorem announced_told_cons (event : Event) (later : List Exchanged) :
    announced (told event :: later) = event :: announced later :=
  rfl

private theorem announced_eq_nil {said : List Exchanged}
    (silent : ∀ exchange ∈ said, ∀ event, exchange.1 ≠ .announce event) : announced said = [] := by
  rw [announced, List.filterMap_eq_nil_iff]
  intro exchange member
  obtain ⟨request, answer⟩ := exchange
  cases request with
  | announce event => exact absurd rfl (silent _ member event)
  | access | environment | call | clock | sleep => rfl

/-- A reconciliation tells nothing. -/
theorem Reconciliation.announced_of_runs {first last : Reconciliation} {spoken : List Exchanged}
    (runs : Task.Runs first spoken last) : announced spoken = [] := by
  apply announced_eq_nil
  induction runs with
  | here => exact List.forall_mem_nil _
  | ask asks _ _ ih =>
      refine List.forall_mem_cons.mpr ⟨?_, ih⟩
      rcases Reconciliation.asks_remotely asks with ⟨_, rfl⟩ | rfl | ⟨_, rfl⟩ <;> exact nofun
  | acquire _ _ ih | release _ _ ih => exact ih

section

variable {build : Build} {entry : EntryPoint} {said : List Exchanged}

/-- Packaging tells nothing. -/
theorem Build.announced_of_trace {result : Except Failure Packaged}
    (packaging : Program.Trace (build.package entry).run said result) : announced said = [] := by
  refine announced_eq_nil fun exchange member event same => ?_
  obtain ⟨listed, asks⟩ := (Build.trace_package_iff.mp packaging).asks_of_mem member
  rw [same] at asks
  cases asks

/-- Packaging itself announces nothing. -/
theorem Build.announced_of_reaches {rest : Talk (Except Failure Packaged)}
    (reaches : Program.Reaches (build.package entry).run said rest) : announced said = [] := by
  obtain ⟨later, result, trace⟩ := reaches.exists_trace
  have whole := announced_of_trace trace
  rw [announced_append] at whole
  exact (List.append_eq_nil_iff.mp whole).1

end

/-! ### What the conductor tells -/

/-- What has been told when the conductor stands in a phase between the start and the stop of the
environment. -/
inductive Chronicle (run : Run) : Phase → List (Actor × Event) → Prop where
  | heading : Chronicle run .heading []
  | working {told : List (Actor × Event)} (byTasks : ByTasks told) :
      Chronicle run .working (headed :: told)
  | lamenting {told : List (Actor × Event)} {results : List (EntryPoint × Outcome)}
      {lamented left : List (String × String)} (byTasks : ByTasks told)
      (ended : run.results? = some results) (cut : Run.abortions results = lamented ++ left) :
      Chronicle run (.lamenting left) (headed :: (told ++ lamented.map lament))
  | stopping {told : List (Actor × Event)} {results : List (EntryPoint × Outcome)}
      (byTasks : ByTasks told) (ended : run.results? = some results) :
      Chronicle run (.stopping (.ok ()))
        (headed :: (told ++ (Run.abortions results).map lament))

/-- What is told under a label of a task, this task tells. -/
theorem announcement?_entry {index : Nat} {request : Request} {reply : Reply request.Answer}
    {item : Actor × Event}
    (tells : (Label.exchange (.entry index) request reply).announcement? = some item) :
    item.1 = .entry index := by
  rw [Label.announcement?.eq_def] at tells
  split at tells
  case h_1 actor event answer same =>
      cases same
      cases tells
      rfl
  case h_2 => cases tells

/-- A turn of a task adds to what tasks tell. -/
theorem ByTasks.concat {labels : List Label} {told : List (Actor × Event)} {index : Nat}
    {request : Request} {reply : Reply request.Answer} (byTasks : ByTasks told)
    (before : announcements labels = headed :: told) :
    ∃ more, ByTasks more ∧
      announcements (labels ++ [.exchange (.entry index) request reply]) = headed :: more := by
  cases tells : (Label.exchange (.entry index) request reply).announcement? with
  | none => exact ⟨told, byTasks, (announcements_concat_of_none tells labels).trans before⟩
  | some item =>
      refine ⟨told ++ [item], forall_mem_concat byTasks ⟨index, announcement?_entry tells⟩, ?_⟩
      rw [announcements_concat_of_some tells, before, List.cons_append]

private theorem Chronicle.of_heading {run : Run} {told : List (Actor × Event)}
    (chronicle : Chronicle run .heading told) : told = [] := by
  cases chronicle
  rfl

private theorem Chronicle.of_working {run : Run} {told : List (Actor × Event)}
    (chronicle : Chronicle run .working told) :
    ∃ later, ByTasks later ∧ told = headed :: later := by
  cases chronicle with
  | working byTasks => exact ⟨_, byTasks, rfl⟩

private theorem Chronicle.of_lamenting {run : Run} {left : List (String × String)}
    {told : List (Actor × Event)} (chronicle : Chronicle run (.lamenting left) told) :
    ∃ later results lamented, ByTasks later ∧ run.results? = some results ∧
      Run.abortions results = lamented ++ left ∧
      told = headed :: (later ++ lamented.map lament) := by
  cases chronicle with
  | lamenting byTasks ended cut => exact ⟨_, _, _, byTasks, ended, cut, rfl⟩

/-- What has been told when the environment is about to be stopped. -/
theorem Chronicle.of_stopping {run : Run} {started : Except Failure Unit}
    {told : List (Actor × Event)} (chronicle : Chronicle run (.stopping started) told) :
    ∃ later results, ByTasks later ∧ run.results? = some results ∧
      told = headed :: (later ++ (Run.abortions results).map lament) := by
  cases chronicle with
  | stopping byTasks ended => exact ⟨_, _, byTasks, ended, rfl⟩

/-- A turn of the conductor adds to the chronicle what the phase before it says. -/
theorem Chronicle.conducts {labels : List Label} {run : Run} {label : Label} {phase : Phase}
    (timeline : Timeline labels run.phase)
    (chronicle : run.phase.Underway → Chronicle run run.phase (announcements labels))
    (conducts : run.Conducts label phase) (underway : phase.Underway) :
    Chronicle (run.goTo phase) phase (announcements (labels ++ [label])) := by
  cases conducts with
  | notStarted | startCrashed | stopped | notStopped | stopCrashed | warned => cases underway
  | started standing =>
      rw [standing] at timeline
      obtain rfl := timeline.of_starting
      exact .heading
  | headed standing =>
      rw [standing] at chronicle
      rw [announcements_concat_of_some rfl, (chronicle .heading).of_heading]
      exact .working (List.forall_mem_nil _)
  | @joined results standing ended =>
      rw [standing] at chronicle
      obtain ⟨later, byTasks, same⟩ := (chronicle .working).of_working
      have cut : Run.abortions results = [] ++ Run.abortions results := rfl
      rw [announcements_concat_of_none rfl, same, ← List.append_nil later,
        ← List.map_nil (f := lament)]
      exact .lamenting byTasks ended cut
  | @lamented entry cause rest standing =>
      rw [standing] at chronicle
      obtain ⟨later, results, lamented, byTasks, ended, cut, same⟩ :=
        (chronicle (.lamenting _)).of_lamenting
      have tells : (Label.exchange .conductor (.announce ((Outcome.aborted cause).event entry))
        (.answered ())).announcement? = some (lament (entry, cause)) := rfl
      rw [announcements_concat_of_some tells, same, List.cons_append, List.append_assoc,
        ← List.map_singleton, ← List.map_append]
      exact .lamenting byTasks ended (cut.trans (List.append_cons _ _ _))
  | consoled standing =>
      rw [standing] at chronicle
      obtain ⟨later, results, lamented, byTasks, ended, cut, same⟩ :=
        (chronicle (.lamenting _)).of_lamenting
      rw [List.append_nil] at cut
      rw [announcements_concat_of_none rfl, same, ← cut]
      exact .stopping byTasks ended

namespace Scene

variable {build : Build} {permits : Nat} {entries : List EntryPoint} {files : Files}
  {keeps : Scene → Label → Scene → Prop} {labels : List Label} {last : Scene}

/-- While a run is underway, what has been told is as its phase says. -/
theorem Course.chronicle (course : Course keeps (start build permits entries files) labels last)
    (underway : last.run.phase.Underway) :
    Chronicle last.run last.run.phase (announcements labels) := by
  induction course with
  | nil => cases underway
  | @concat labels middle last label course step _ ih =>
      cases moves_of_step step with
      | conductor conducts => exact Chronicle.conducts course.timeline ih conducts underway
      | moved working =>
          rw [working] at ih
          obtain ⟨told, byTasks, same⟩ := (ih .working).of_working
          change Chronicle _ middle.run.phase _
          rw [working, announcements_concat_of_none rfl, same]
          exact .working byTasks
      | exchange working =>
          rw [working] at ih
          obtain ⟨told, byTasks, same⟩ := (ih .working).of_working
          obtain ⟨more, byTasks, whole⟩ := byTasks.concat same
          change Chronicle _ middle.run.phase _
          rw [working, whole]
          exact .working byTasks

/-- Once the environment has been stopped, there is nothing to tell but that it did not stop. -/
theorem Course.warnings_of_stopped {first : Scene} (course : Course keeps first labels last)
    (stopped : first.run.phase.Stopped) :
    ∀ item ∈ announcements labels, ∃ message, item = (.conductor, .warning message) := by
  induction course with
  | nil => exact List.forall_mem_nil _
  | @concat labels middle last label course step _ ih =>
      obtain ⟨stopped, -⟩ := course.tells_of_stopped stopped
      cases moves_of_step step with
      | moved working | exchange working =>
          rw [working] at stopped
          cases stopped with
          | past past => cases past
      | conductor conducts =>
          cases conducts with
          | warned standing message =>
              rw [announcements_concat_of_some rfl]
              exact forall_mem_concat ih ⟨message, rfl⟩
          | started standing | notStarted standing | startCrashed standing | headed standing
          | joined standing | lamented standing | consoled standing | stopped standing
          | notStopped standing | stopCrashed standing =>
              rw [standing] at stopped
              cases stopped with
              | past past => cases past

end Scene

/-- All that is told in a run whose environment has started: the heading, what the tasks tell, the
ends of those that a panic ended, and warnings. -/
structure Telling (labels : List Label) (results : List (EntryPoint × Outcome))
    (told closing : List (Actor × Event)) : Prop where
  byTasks : ByTasks told
  warns : ∀ item ∈ closing, ∃ message, item = (.conductor, .warning message)
  whole : announcements labels =
    headed :: (told ++ ((Run.abortions results).map lament ++ closing))

namespace Scene

variable {build : Build} {permits : Nat} {entries : List EntryPoint} {files : Files}
  {keeps : Scene → Label → Scene → Prop} {labels : List Label} {last : Scene}

/-- A run that is over has told everything, if its environment started. -/
theorem Course.exists_telling
    (course : Course keeps (start build permits entries files) labels last) (isOver : last.Over)
    (started : startLabel (.answered (.ok ())) ∈ labels) :
    ∃ results told closing, last.run.results? = some results ∧
      (∀ report, last.run.report? = some report → report = .ok ⟨results⟩) ∧
      Telling labels results told closing := by
  cases course.parts isOver with
  | crashed whole =>
      rw [whole] at started
      cases List.mem_singleton.mp started
  | @stopped answer reply later warned _ whole tells refused _ _ _ standing =>
      obtain rfl : answer = .ok () := by
        cases answer with
        | ok => rfl
        | error failure =>
            obtain rfl := refused failure rfl
            rw [whole] at started
            exact absurd started (startLabel_not_mem_of_refused tells)
      subst whole
      obtain ⟨middle, next, early, step, -, since⟩ := course.split_at
      obtain ⟨⟨answer, stopping⟩, stopped, samePool, sameEntries⟩ := stopped_of_step step
      obtain ⟨-, pool, entries, -⟩ := since.tells_of_stopped stopped
      have opened := early.timeline
      rw [stopping] at opened
      obtain ⟨_, same, -⟩ := opened.of_stopping
      cases same
      have chronicle := early.chronicle (by rw [stopping]; exact .stopping)
      rw [stopping] at chronicle
      obtain ⟨told, results, byTasks, ended, before⟩ := chronicle.of_stopping
      have kept : last.run.results? = some results := by
        rw [← ended, Run.results?, Run.results?, pool, samePool, entries, sameEntries]
      refine ⟨results, told, _, kept, fun report returned => ?_, byTasks,
        since.warnings_of_stopped stopped, ?_⟩
      · rw [Run.report?, standing] at returned
        cases reply with
        | panicked => cases returned
        | answered =>
            dsimp only [finalPhase] at returned
            rw [kept] at returned
            cases returned
            rfl
      · rw [announcements_append, before, List.cons_append, List.append_assoc]
        rfl

/-- Who has a turn in a run is one of its entry points. -/
theorem Course.lt_of_announcement
    (course : Course keeps (start build permits entries files) labels last) {index : Nat}
    {event : Event} (member : (.entry index, event) ∈ announcements labels) :
    index < entries.length := by
  obtain ⟨label, inLabels, tells⟩ := List.mem_filterMap.mp member
  rw [Label.announcement?.eq_def] at tells
  split at tells
  case h_1 actor told answer =>
      cases tells
      obtain ⟨before, after, rfl⟩ := List.append_of_mem inLabels
      obtain ⟨middle, next, early, step, -⟩ := course.split_at
      obtain ⟨takes, -⟩ := takes_of_step step
      obtain ⟨entry, there, -⟩ := early.wants_of_takes takes
      exact (List.getElem?_eq_some_iff.mp there).1
  case h_2 => cases tells

end Scene

end FunctionBundler
