/-
Module: FunctionBundler.Deploy.Reconcile
Purpose: Bringing one deployed function up to date, as a task.
Trusted boundary: none
Main exports:
  Deployment, DeployReport, Errand, Stage, Reconciliation, Reconciliation.start
-/
import FunctionBundler.Archive
import FunctionBundler.Deploy.Options
import FunctionBundler.Task

namespace FunctionBundler

/-!
A reconciliation looks its function up, plans, uploads the archive if it is too
large to travel with a call, and then makes the planned changes one after the
other.  After each change it looks at the function again and again until the
change has taken effect.  The first failure ends it.  Each call is made under a
permit, which is given back before anything else happens; in between the task
looks at the clock or pauses without one.
-/

/-- What a function is to be brought in line with. -/
structure Deployment where
  function : FunctionName
  archive : Archive
  parameters : Parameters
  role : String
  options : DeployOptions
deriving DecidableEq

/-- What a reconciliation did, or would do, for a function. -/
structure DeployReport where
  function : FunctionName
  actions : List DeployAction
deriving Repr, DecidableEq

/-- A plan that is being carried out: the whole of it, how the code travels, and the actions that
come after the current one. -/
structure Progress where
  plan : List DeployAction
  code : Payload
  later : List DeployAction
deriving DecidableEq

/-- A call that a reconciliation makes, and what for. -/
inductive Errand where
  | lookUp
  | upload (plan : List DeployAction) (bucket : String)
  | change (progress : Progress) (action : DeployAction)
  | poll (progress : Progress) (since : Nat)
deriving DecidableEq

/-- Where a reconciliation stands while it makes no call: before an errand, about to look at the
clock after a change or after a poll, about to pause, or at the end. -/
inductive Stage where
  | before (errand : Errand)
  | timing (progress : Progress)
  | checking (progress : Progress) (since : Nat)
  | pausing (progress : Progress) (since : Nat)
  | ended (result : Except DeployFailure DeployReport)

namespace Deployment

/-- The key under which the archive is uploaded. -/
def key (deployment : Deployment) : String :=
  objectKey deployment.function deployment.archive.digest

/-- The call that makes a change. -/
def changeCall (deployment : Deployment) (code : Payload) : DeployAction → RemoteCall
  | .create =>
    .create
      { function := deployment.function
        runtime := deployment.options.runtime
        role := deployment.role
        code
        timeout := deployment.parameters.timeout
        memory := deployment.parameters.memory
        ephemeralStorage := deployment.parameters.ephemeralStorage
        arch := deployment.options.arch }
  | .updateCode => .updateCode deployment.function code
  | .updateRole =>
    .updateConfig deployment.function
      { timeout := none, memory := none, role := some deployment.role }
  | .updateConfig =>
    .updateConfig deployment.function
      { timeout := some deployment.parameters.timeout
        memory := some deployment.parameters.memory
        role := none }

/-- The call of an errand. -/
def callOf (deployment : Deployment) : Errand → RemoteCall
  | .lookUp => .lookUp deployment.function
  | .upload _ bucket => .upload bucket deployment.key deployment.archive.bytes
  | .change progress action => deployment.changeCall progress.code action
  | .poll _ _ => .isStable deployment.function

/-- The report after a plan. -/
def report (deployment : Deployment) (plan : List DeployAction) : DeployReport :=
  ⟨deployment.function, plan⟩

/-- Go on with the actions that are left. -/
def proceed (deployment : Deployment) (plan : List DeployAction) (code : Payload) :
    (left : List DeployAction) → Stage
  | [] => .ended (.ok (deployment.report plan))
  | action :: later => .before (.change ⟨plan, code, later⟩ action)

/-- Begin to carry out a plan.  An archive that the plan ships and that is too large to travel with
a call has to be uploaded first. -/
def carryOut (deployment : Deployment) (plan : List DeployAction) : Stage :=
  if plan.any DeployAction.shipsCode ∧
      deployment.options.inlineLimit < deployment.archive.size then
    match deployment.options.bucket with
    | some bucket => .before (.upload plan bucket)
    | none =>
      .ended (.error (.missingBucket deployment.function deployment.archive.size))
  else
    deployment.proceed plan (.inline deployment.archive.bytes) plan

/-- What follows when the function has been looked up. -/
def decide (deployment : Deployment) (remote : Option RemoteFunction) : Stage :=
  let actions := plan remote deployment.archive.digest deployment.role deployment.parameters
  if actions = [] ∨ deployment.options.dryRun then .ended (.ok (deployment.report actions))
  else deployment.carryOut actions

/-- What follows an answer, unless it is a failure. -/
def orFail {α : Type} (answer : Except DeployFailure α) (next : α → Stage) : Stage :=
  match answer with
  | .ok result => next result
  | .error failure => .ended (.error failure)

/-- What follows when an errand's call has been answered. -/
def after (deployment : Deployment) : (errand : Errand) → (deployment.callOf errand).Answer → Stage
  | .lookUp, answer => orFail answer deployment.decide
  | .upload plan bucket, answer =>
    orFail answer fun _ => deployment.proceed plan (.stored bucket deployment.key) plan
  | .change progress _, answer => orFail answer fun _ => .timing progress
  | .poll progress since, answer =>
    orFail answer fun (stable : Bool) =>
      if stable then deployment.proceed progress.plan progress.code progress.later
      else .checking progress since

/-- What follows a look at the clock when the function was not stable yet. -/
def check (deployment : Deployment) (progress : Progress) (since now : Nat) : Stage :=
  if deployment.options.maxWait ≤ now - since then
    .ended (.error (.timedOut deployment.function (now - since)))
  else .pausing progress since

end Deployment

/-- Where a reconciliation stands: outside a call, in the call of an errand under a permit, or about
to give the permit back. -/
inductive Position where
  | outside (stage : Stage)
  | calling (errand : Errand)
  | leaving (stage : Stage)

/-- A reconciliation under way. -/
structure Reconciliation where
  deployment : Deployment
  position : Position

namespace Reconciliation

/-- A reconciliation that has not done anything yet. -/
def start (deployment : Deployment) : Reconciliation :=
  ⟨deployment, .outside (.before .lookUp)⟩

/-- The reconciliation outside a call. -/
def standAt (reconciliation : Reconciliation) (stage : Stage) : Reconciliation :=
  { reconciliation with position := .outside stage }

/-- The next step of a reconciliation. -/
def step (reconciliation : Reconciliation) :
    Step Reconciliation (Except DeployFailure DeployReport) :=
  let deployment := reconciliation.deployment
  match reconciliation.position with
  | .outside (.before errand) => .acquire { reconciliation with position := .calling errand }
  | .calling errand =>
    .ask (.call (deployment.callOf errand)) fun answer =>
      { reconciliation with position := .leaving (deployment.after errand answer) }
  | .leaving stage => .release (reconciliation.standAt stage)
  | .outside (.timing progress) =>
    .ask .clock fun now => reconciliation.standAt (.before (.poll progress now))
  | .outside (.checking progress since) =>
    .ask .clock fun now => reconciliation.standAt (deployment.check progress since now)
  | .outside (.pausing progress since) =>
    .ask (.sleep deployment.options.pollInterval) fun _ =>
      reconciliation.standAt (.before (.poll progress since))
  | .outside (.ended result) => .ended result

/-- Whether a reconciliation has a permit. -/
def holdsPermit (reconciliation : Reconciliation) : Bool :=
  match reconciliation.position with
  | .outside _ => false
  | .calling _ | .leaving _ => true

instance : Task Reconciliation (Except DeployFailure DeployReport) where
  step := step
  holdsPermit := holdsPermit

end Reconciliation

end FunctionBundler
