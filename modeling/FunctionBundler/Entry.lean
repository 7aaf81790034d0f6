/-
Module: FunctionBundler.Entry
Purpose: One entry point of a run, as a task: packaging, deploying, and what is told about it.
Trusted boundary: none
Main exports:
  Outcome, Outcome.isFailure, Outcome.event, EntryTask, EntryTask.start
-/
import FunctionBundler.Deploy.Reconcile
import FunctionBundler.Entry.Packaging

namespace FunctionBundler

/-!
The task of an entry point tells that it begins, packages, hands the archive over
to a reconciliation if the run deploys, and at last tells how it ended.  What is
told at the end is a function of the outcome.
-/

/-- How an entry point ended. -/
inductive Outcome where
  | packaged (archive : Path) (size : Nat)
  | deployed (function : FunctionName) (actions : List DeployAction)
  | deployFailed (function : FunctionName) (failure : DeployFailure)
  | failed (failure : Failure)
  | aborted (cause : String)
deriving DecidableEq

namespace Outcome

/-- Whether packaging failed; a failed deployment is not a failure of the run. -/
def isFailure : Outcome → Bool
  | .failed _ | .aborted _ => true
  | .packaged _ _ | .deployed _ _ | .deployFailed _ _ => false

/-- What is told about a task that was ended by a panic. -/
def abortedMessage (cause : String) : String := s!"packaging task aborted: {cause}"

/-- The cause of the panic that ended the task, if one did. -/
def panic? : Outcome → Option String
  | .aborted cause => some cause
  | .packaged _ _ | .deployed _ _ | .deployFailed _ _ | .failed _ => none

/-- What is told about a deployment: the names of its actions. -/
def detail (actions : List DeployAction) : String :=
  if actions = [] then "up to date" else ", ".intercalate (actions.map DeployAction.name)

/-- What is told when an entry point has ended. -/
def event (entry : String) : Outcome → Event
  | .packaged archive size => .packaged entry archive size
  | .deployed function actions => .deployed entry function (detail actions)
  | .deployFailed _ failure => .failed entry failure.message
  | .failed failure => .failed entry failure.message
  | .aborted cause => .failed entry (abortedMessage cause)

end Outcome

/-- Where the task of an entry point stands: before it began, packaging, deploying, or at the end.
-/
inductive EntryStage where
  | arriving
  | packaging (rest : Talk (Except Failure Packaged))
  | deploying (reconciliation : Reconciliation)
  | ended (outcome : Outcome)

/-- The task of an entry point. -/
structure EntryTask where
  build : Build
  entry : EntryPoint
  stage : EntryStage

/-- The deployment of a packaged entry point, if the run deploys. -/
def Build.deployment? (build : Build) (packaged : Packaged) : Option Deployment := do
  let options ← build.reconciler
  let deploy ← build.settings.deploy
  return {
    function := .compute build.settings.targetName packaged.parameters
    archive := packaged.archive
    parameters := packaged.parameters
    role := deploy.roleArn
    options }

namespace EntryTask

/-- The task of an entry point that has not done anything yet. -/
def start (build : Build) (entry : EntryPoint) : EntryTask :=
  ⟨build, entry, .arriving⟩

/-- The task in another stage. -/
def goTo (task : EntryTask) (stage : EntryStage) : EntryTask :=
  { task with stage }

/-- Tell something about the entry point, and go to another stage. -/
def tell (task : EntryTask) (event : Event) (stage : EntryStage) : Step EntryTask Outcome :=
  .ask (.announce event) fun _ => task.goTo stage

/-- Tell how the entry point ended. -/
def leave (task : EntryTask) (outcome : Outcome) : Step EntryTask Outcome :=
  task.tell (outcome.event task.entry.fileName) (.ended outcome)

/-- What follows packaging: a deployment if the run deploys, or the end. -/
def afterPackaging (task : EntryTask) : Except Failure Packaged → Step EntryTask Outcome
  | .error failure => task.leave (.failed failure)
  | .ok packaged =>
    match task.build.deployment? packaged with
    | some deployment =>
      task.tell (.deploying task.entry.fileName deployment.function)
        (.deploying (.start deployment))
    | none =>
      task.leave (.packaged (Archive.pathFor packaged.executable) packaged.archive.size)

/-- What follows a deployment: the end. -/
def afterDeploying (task : EntryTask) (deployment : Deployment) :
    Except DeployFailure DeployReport → Step EntryTask Outcome
  | .ok report => task.leave (.deployed report.function report.actions)
  | .error failure => task.leave (.deployFailed deployment.function failure)

/-- The next step of the task of an entry point. -/
def step (task : EntryTask) : Step EntryTask Outcome :=
  match task.stage with
  | .arriving =>
    task.tell (.packaging task.entry.fileName) (.packaging (task.build.package task.entry).run)
  | .packaging rest =>
    (Talk.step rest).within (fun rest => task.goTo (.packaging rest)) task.afterPackaging
  | .deploying reconciliation =>
    reconciliation.step.within (fun next => task.goTo (.deploying next))
      (task.afterDeploying reconciliation.deployment)
  | .ended outcome => .ended outcome

/-- Whether the task has a permit. -/
def holdsPermit (task : EntryTask) : Bool :=
  match task.stage with
  | .deploying reconciliation => reconciliation.holdsPermit
  | _ => false

instance : Task EntryTask Outcome where
  step := step
  holdsPermit := holdsPermit

end EntryTask

end FunctionBundler
