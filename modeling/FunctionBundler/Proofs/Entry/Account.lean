/-
Module: FunctionBundler.Proofs.Entry.Account
Purpose: What the task of an entry point asks in its whole life, and the outcome that this leads to.
Trusted boundary: none
Main exports:
  told, EntryTask.Lived, EntryTask.Account, EntryTask.Reached, EntryTask.fits_of_runs,
  EntryTask.account_of_runs, EntryTask.Wants, EntryTask.wants_of_ask
-/
import FunctionBundler.Entry
import FunctionBundler.Proofs.Program.Trace
import FunctionBundler.Proofs.Task.Runs

namespace FunctionBundler

/-!
The life of an entry point's task is to tell that it begins, to package, to reconcile
if there is a deployment, and to tell its outcome.  `Reached` says where the task can
stand on the way there.  Every step keeps it, so every run does, and a task that has
ended has a whole life behind it.
-/

/-- Something that was told. -/
def told (event : Event) : Exchanged :=
  ⟨.announce event, ()⟩

/-- A reconciliation never changes what it is to deploy. -/
theorem Reconciliation.deployment_of_runs {first last : Reconciliation} {said : List Exchanged}
    (runs : Task.Runs first said last) : last.deployment = first.deployment := by
  have keeps (state : Reconciliation) (same : state.deployment = first.deployment) :
      (Task.step state).All fun next => next.deployment = first.deployment := by
    obtain ⟨deployment, position⟩ := state
    cases position with
    | calling errand => exact fun _ => same
    | leaving stage => exact same
    | outside stage =>
        cases stage with
        | before errand => exact same
        | timing | checking | pausing => exact fun _ => same
        | ended result => trivial
  exact runs.invariant _ keeps rfl

/-- A step that asks for what a property allows, if it asks. -/
def Step.AsksFor {σ ρ : Type} (allowed : Request → Prop) : Step σ ρ → Prop
  | .ask request _ => allowed request
  | _ => True

namespace EntryTask

/-- The exchanges of a task up to the end of its work, and the outcome of this work. -/
inductive Lived (build : Build) (entry : EntryPoint) : List Exchanged → Outcome → Prop where
  | failed {said : List Exchanged} {failure : Failure}
      (packaging : Program.Trace (build.package entry).run said (.error failure)) :
      Lived build entry (told (.packaging entry.fileName) :: said) (.failed failure)
  | packaged {said : List Exchanged} {packaged : Packaged}
      (packaging : Program.Trace (build.package entry).run said (.ok packaged))
      (stays : build.deployment? packaged = none) :
      Lived build entry (told (.packaging entry.fileName) :: said)
        (.packaged (Archive.pathFor packaged.executable) packaged.archive.size)
  | deployed {said spoken : List Exchanged} {packaged : Packaged} {deployment : Deployment}
      {last : Reconciliation} {report : DeployReport}
      (packaging : Program.Trace (build.package entry).run said (.ok packaged))
      (deploys : build.deployment? packaged = some deployment)
      (runs : Task.Runs (Reconciliation.start deployment) spoken last)
      (ended : Task.step last = .ended (.ok report)) :
      Lived build entry
        (told (.packaging entry.fileName) :: said ++
          told (.deploying entry.fileName deployment.function) :: spoken)
        (.deployed report.function report.actions)
  | deployFailed {said spoken : List Exchanged} {packaged : Packaged} {deployment : Deployment}
      {last : Reconciliation} {failure : DeployFailure}
      (packaging : Program.Trace (build.package entry).run said (.ok packaged))
      (deploys : build.deployment? packaged = some deployment)
      (runs : Task.Runs (Reconciliation.start deployment) spoken last)
      (ended : Task.step last = .ended (.error failure)) :
      Lived build entry
        (told (.packaging entry.fileName) :: said ++
          told (.deploying entry.fileName deployment.function) :: spoken)
        (.deployFailed deployment.function failure)

/-- The exchanges of a task from its beginning to its end, where it tells its outcome. -/
inductive Account (build : Build) (entry : EntryPoint) : List Exchanged → Outcome → Prop where
  | mk {said : List Exchanged} {outcome : Outcome} (lived : Lived build entry said outcome) :
      Account build entry (said ++ [told (outcome.event entry.fileName)]) outcome

/-- Where a task can stand after some exchanges. -/
inductive Reached (build : Build) (entry : EntryPoint) : List Exchanged → EntryStage → Prop where
  | arriving : Reached build entry [] .arriving
  | packaging {said : List Exchanged} {rest : Talk (Except Failure Packaged)}
      (reaches : Program.Reaches (build.package entry).run said rest) :
      Reached build entry (told (.packaging entry.fileName) :: said) (.packaging rest)
  | deploying {said spoken : List Exchanged} {packaged : Packaged} {deployment : Deployment}
      {reconciliation : Reconciliation}
      (packaging : Program.Trace (build.package entry).run said (.ok packaged))
      (deploys : build.deployment? packaged = some deployment)
      (runs : Task.Runs (Reconciliation.start deployment) spoken reconciliation) :
      Reached build entry
        (told (.packaging entry.fileName) :: said ++
          told (.deploying entry.fileName deployment.function) :: spoken)
        (.deploying reconciliation)
  | ended {said : List Exchanged} {outcome : Outcome} (account : Account build entry said outcome) :
      Reached build entry said (.ended outcome)

variable {build : Build} {entry : EntryPoint} {said : List Exchanged}

/-- The task of an entry point, standing where it can stand after some exchanges. -/
inductive Fits (build : Build) (entry : EntryPoint) (said : List Exchanged) : EntryTask → Prop where
  | mk {stage : EntryStage} (reached : Reached build entry said stage) :
      Fits build entry said ⟨build, entry, stage⟩

/-- A step after which the task fits again, whatever is answered; an end after a whole life. -/
def Keeps (build : Build) (entry : EntryPoint) (said : List Exchanged) :
    Step EntryTask Outcome → Prop
  | .ask request resume => ∀ answer, Fits build entry (said ++ [⟨request, answer⟩]) (resume answer)
  | .acquire next | .release next => Fits build entry said next
  | .ended outcome => Account build entry said outcome

private theorem keeps_leave {outcome : Outcome} (stage : EntryStage)
    (lived : Lived build entry said outcome) :
    Keeps build entry said (leave ⟨build, entry, stage⟩ outcome) :=
  fun _ => .mk (.ended (.mk lived))

private theorem keeps_packaging {rest : Talk (Except Failure Packaged)}
    (reaches : Program.Reaches (build.package entry).run said rest) :
    Keeps build entry (told (.packaging entry.fileName) :: said)
      (step ⟨build, entry, .packaging rest⟩) := by
  cases rest with
  | ask request resume => exact fun answer => .mk (.packaging (reaches.concat answer))
  | done result =>
      have trace := reaches.trace
      cases result with
      | error failure => exact keeps_leave _ (.failed trace)
      | ok packaged =>
          change Keeps build entry _ (afterPackaging _ (.ok packaged))
          rw [afterPackaging]
          cases deploys : build.deployment? packaged with
          | none => exact keeps_leave _ (.packaged trace deploys)
          | some deployment =>
              intro _
              exact .mk (.deploying trace deploys (.here _))

/-- While an entry point is deployed, its task steps as the reconciliation does. -/
theorem step_deploying (reconciliation : Reconciliation) :
    step ⟨build, entry, .deploying reconciliation⟩ =
      (Task.step reconciliation).within (fun next => ⟨build, entry, .deploying next⟩)
        (afterDeploying ⟨build, entry, .deploying reconciliation⟩ reconciliation.deployment) :=
  rfl

private theorem keeps_deploying {spoken : List Exchanged} {packaged : Packaged}
    {deployment : Deployment} {reconciliation : Reconciliation}
    (packaging : Program.Trace (build.package entry).run said (.ok packaged))
    (deploys : build.deployment? packaged = some deployment)
    (runs : Task.Runs (Reconciliation.start deployment) spoken reconciliation) :
    Keeps build entry
      (told (.packaging entry.fileName) :: said ++
        told (.deploying entry.fileName deployment.function) :: spoken)
      (step ⟨build, entry, .deploying reconciliation⟩) := by
  rw [step_deploying]
  cases taken : Task.step reconciliation with
  | ask request resume =>
      intro answer
      rw [List.append_assoc, List.cons_append]
      exact .mk (.deploying packaging deploys (runs.append (.ask taken answer (.here _))))
  | acquire next =>
      have after := runs.append (.acquire taken (.here _))
      rw [List.append_nil] at after
      exact .mk (.deploying packaging deploys after)
  | release next =>
      have after := runs.append (.release taken (.here _))
      rw [List.append_nil] at after
      exact .mk (.deploying packaging deploys after)
  | ended result =>
      cases result with
      | ok report => exact keeps_leave _ (.deployed packaging deploys runs taken)
      | error failure =>
          have same : reconciliation.deployment = deployment :=
            Reconciliation.deployment_of_runs runs
          subst same
          exact keeps_leave _ (.deployFailed packaging deploys runs taken)

/-- What a task does next keeps it where it can stand. -/
theorem Fits.keeps {task : EntryTask} (fits : Fits build entry said task) :
    Keeps build entry said task.step := by
  cases fits with
  | mk reached =>
      cases reached with
      | arriving => exact fun _ => .mk (.packaging (.here _))
      | packaging reaches => exact keeps_packaging reaches
      | deploying packaging deploys runs => exact keeps_deploying packaging deploys runs
      | ended account => exact account

/-- However a task goes on, what it has been told fits where it stands. -/
theorem fits_of_runs {first last : EntryTask} {later : List Exchanged}
    (fits : Fits build entry said first) (runs : Task.Runs first later last) :
    Fits build entry (said ++ later) last := by
  induction runs generalizing said with
  | here => rwa [List.append_nil]
  | @ask state last request resume rest asks answer _ ih =>
      have kept := fits.keeps
      rw [show state.step = _ from asks] at kept
      have whole := ih (kept answer)
      rwa [List.append_assoc, List.singleton_append] at whole
  | @acquire state next last rest acquires _ ih =>
      have kept := fits.keeps
      rw [show state.step = _ from acquires] at kept
      exact ih kept
  | @release state next last rest releases _ ih =>
      have kept := fits.keeps
      rw [show state.step = _ from releases] at kept
      exact ih kept

/-- Wherever a run has led a task, it can stand there. -/
theorem fits_of_runs_start {last : EntryTask}
    (runs : Task.Runs (start build entry) said last) : Fits build entry said last :=
  fits_of_runs (.mk .arriving) runs

/-- A task that has ended has a whole life behind it. -/
theorem account_of_runs {last : EntryTask} {outcome : Outcome}
    (runs : Task.Runs (start build entry) said last) (ended : Task.step last = .ended outcome) :
    Account build entry said outcome := by
  have kept := (fits_of_runs_start runs).keeps
  rwa [show last.step = _ from ended] at kept

/-! ### What a task asks -/

/-- What a task can ask after some exchanges: to tell something, what packaging asks, or what a
reconciliation asks after packaging has succeeded. -/
inductive Wants (build : Build) (entry : EntryPoint) : List Exchanged → Request → Prop where
  | tells {said : List Exchanged} (event : Event) : Wants build entry said (.announce event)
  | packages {said : List Exchanged} {request : Request}
      {resume : request.Answer → Talk (Except Failure Packaged)}
      (reaches : Program.Reaches (build.package entry).run said (.ask request resume)) :
      Wants build entry (told (.packaging entry.fileName) :: said) request
  | reconciles {said spoken : List Exchanged} {packaged : Packaged} {deployment : Deployment}
      {reconciliation : Reconciliation} {request : Request}
      {resume : request.Answer → Reconciliation}
      (packaging : Program.Trace (build.package entry).run said (.ok packaged))
      (deploys : build.deployment? packaged = some deployment)
      (runs : Task.Runs (Reconciliation.start deployment) spoken reconciliation)
      (asks : Task.step reconciliation = .ask request resume) :
      Wants build entry
        (told (.packaging entry.fileName) :: said ++
          told (.deploying entry.fileName deployment.function) :: spoken) request

/-- What a task asks for is what it may want. -/
theorem Fits.wants {task : EntryTask} (fits : Fits build entry said task) :
    task.step.AsksFor (Wants build entry said) := by
  cases fits with
  | mk reached =>
      cases reached with
      | arriving => exact .tells _
      | ended account => trivial
      | @packaging said rest reaches =>
          cases rest with
          | ask request resume => exact .packages reaches
          | done result =>
              cases result with
              | error failure => exact .tells _
              | ok packaged =>
                  change (afterPackaging _ (.ok packaged)).AsksFor _
                  rw [afterPackaging]
                  split <;> exact .tells _
      | @deploying said spoken packaged deployment reconciliation packaging deploys runs =>
          rw [step_deploying]
          cases taken : Task.step reconciliation with
          | ask request resume => exact .reconciles packaging deploys runs taken
          | acquire next | release next => trivial
          | ended result => cases result <;> exact .tells _

/-- A task never asks for anything else than it may want. -/
theorem wants_of_ask {task : EntryTask} {request : Request} {resume : request.Answer → EntryTask}
    (runs : Task.Runs (start build entry) said task) (asks : Task.step task = .ask request resume) :
    Wants build entry said request := by
  have wants := (fits_of_runs_start runs).wants
  rwa [show task.step = _ from asks] at wants

end EntryTask

/-- A reconciliation asks for calls, for the time and for pauses, and for nothing else. -/
theorem Reconciliation.asks_remotely {reconciliation : Reconciliation} {request : Request}
    {resume : request.Answer → Reconciliation}
    (asks : Task.step reconciliation = .ask request resume) :
    (∃ call, request = .call call) ∨ request = .clock ∨ ∃ duration, request = .sleep duration := by
  obtain ⟨deployment, position⟩ := reconciliation
  cases position with
  | calling errand =>
      cases asks
      exact Or.inl ⟨_, rfl⟩
  | leaving => cases asks
  | outside stage =>
      cases stage with
      | before | ended => cases asks
      | timing | checking =>
          cases asks
          exact Or.inr (Or.inl rfl)
      | pausing =>
          cases asks
          exact Or.inr (Or.inr ⟨_, rfl⟩)

end FunctionBundler
