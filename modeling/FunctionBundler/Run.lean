/-
Module: FunctionBundler.Run
Purpose: A run over the entry points of a manifest: the environment around their tasks.
Trusted boundary: none
Main exports:
  Phase, Actor, Run, Run.start, Run.turn, Run.report?, RunReport
-/
import FunctionBundler.Entry
import FunctionBundler.Task.Pool

namespace FunctionBundler

/-!
A run has a conductor and a task for each entry point.  The conductor starts the
build environment, lets the tasks work, waits until all of them have ended, tells
about those that a panic ended, and stops the environment.  If the environment
does not start, no task works, and the environment is stopped all the same.
Tasks and conductor take turns in any order; only the tasks can work while the
conductor waits.
-/

/-- Where the conductor stands: about to start the environment, about to tell that packaging begins,
waiting for the tasks, telling about tasks that a panic ended, about to stop the environment, about
to tell that it did not stop, at the end, or ended by a panic of the environment itself. -/
inductive Phase where
  | starting
  | heading
  | working
  | lamenting (abortions : List (String × String))
  | stopping (started : Except Failure Unit)
  | warning (failure : Failure) (started : Except Failure Unit)
  | ended (started : Except Failure Unit)
  | crashed

/-- Who takes a turn in a run. -/
inductive Actor where
  | conductor
  | entry (index : Nat)
deriving Repr, DecidableEq

/-- A run over the entry points of a manifest. -/
structure Run where
  entries : List EntryPoint
  phase : Phase
  pool : Pool EntryTask

/-- What a run reports at its end: each entry point with its outcome, in manifest order. -/
structure RunReport where
  results : List (EntryPoint × Outcome)
deriving DecidableEq

/-- Whether packaging some entry point failed. -/
def RunReport.hasFailures (report : RunReport) : Bool :=
  report.results.any fun result => result.2.isFailure

namespace Run

/-- A run that has not done anything yet. -/
def start (build : Build) (permits : Nat) (entries : List EntryPoint) : Run :=
  ⟨entries, .starting, .start permits (entries.map (.start build))⟩

/-- The run with its conductor in another phase. -/
def goTo (run : Run) (phase : Phase) : Run :=
  { run with phase }

/-- The outcome of a task that has ended. -/
def outcomeOf : Reply Outcome → Outcome
  | .answered outcome => outcome
  | .panicked cause => .aborted cause

/-- The outcomes of all entry points, if all their tasks have ended. -/
def results? (run : Run) : Option (List (EntryPoint × Outcome)) :=
  (Pool.results? run.pool).map fun ends => run.entries.zip (ends.map outcomeOf)

/-- The file names of the entry points whose tasks were ended by a panic, with its causes. -/
def abortions (results : List (EntryPoint × Outcome)) : List (String × String) :=
  results.filterMap fun result => result.2.panic?.map fun cause => (result.1.fileName, cause)

/-- A turn of the conductor that asks something; a panic ends the whole run. -/
def conduct (run : Run) (request : Request) (resume : request.Answer → Phase) : Turn Run :=
  .asked request fun
    | .answered answer => run.goTo (resume answer)
    | .panicked _ => run.goTo .crashed

/-- What the conductor does when it has its turn. -/
def conductorTurn (run : Run) : Option (Turn Run) :=
  match run.phase with
  | .starting =>
    some <| run.conduct (.environment .start) fun
      | .ok () => .heading
      | .error failure => .stopping (.error failure)
  | .heading => some <| run.conduct (.announce (.heading "Packaging")) fun _ => .working
  | .working =>
    run.results?.map fun results => .moved (run.goTo (.lamenting (abortions results)))
  | .lamenting ((entry, cause) :: rest) =>
    some <| run.conduct (.announce ((Outcome.aborted cause).event entry)) fun _ => .lamenting rest
  | .lamenting [] => some (.moved (run.goTo (.stopping (.ok ()))))
  | .stopping started =>
    some <| run.conduct (.environment .stop) fun
      | .ok () => .ended started
      | .error failure => .warning failure started
  | .warning failure started =>
    let message := s!"failed to stop build environment: {failure.message}"
    some <| run.conduct (.announce (.warning message)) fun _ => .ended started
  | .ended _ | .crashed => none

/-- What an actor of a run does when it has its turn; nothing if it has to wait or has ended. -/
def turn (run : Run) : Actor → Option (Turn Run)
  | .conductor => run.conductorTurn
  | .entry index =>
    match run.phase with
    | .working => (run.pool.turn index).map fun turn => turn.map fun pool => { run with pool }
    | _ => none

/-- The actors of a run. -/
def actors (run : Run) : List Actor :=
  .conductor :: (List.range run.entries.length).map .entry

/-- What a run reports, if it has ended: the failure of an environment that did not start, or the
outcomes of the entry points. -/
def report? (run : Run) : Option (Except Failure RunReport) :=
  match run.phase with
  | .ended (.error failure) => some (.error failure)
  | .ended (.ok ()) => run.results?.map fun results => .ok ⟨results⟩
  | _ => none

end Run

end FunctionBundler
