/-
Module: FunctionBundler.Proofs.Task.Halting
Purpose: Tasks that come to an end unless the platform keeps saying that a function is not stable.
Trusted boundary: none
Main exports:
  Unstable, Task.Next, Task.Halting, Reconciliation.halting, EntryTask.halting, Pool.Goes,
  Pool.wellFounded_goes
-/
import FunctionBundler.Proofs.Entry.Account
import FunctionBundler.Proofs.Task.Pool

namespace FunctionBundler

/-!
The only loop of a task is that of a reconciliation, which asks again and again whether
a function is stable.  Apart from the answer that it is not, every step leads closer to
the end: through packaging, which is a program, and through the changes of a plan.  So
no pool of tasks can go on for ever without that answer.
-/

/-- The answer to a call that has a reconciliation ask again. -/
def Unstable : (request : Request) → request.Answer → Prop
  | .call (.isStable _), answer => answer = .ok false
  | _, _ => False

namespace Task

variable {σ ρ : Type} [Task σ ρ]

/-- A state that the task can be in after a state, by a step that does not tell that a function is
not stable. -/
inductive Next : σ → σ → Prop where
  | ask {state : σ} {request : Request} {resume : request.Answer → σ}
      (asks : Task.step (ρ := ρ) state = .ask request resume) (answer : request.Answer)
      (settled : ¬Unstable request answer) : Next (resume answer) state
  | acquire {state next : σ} (acquires : Task.step (ρ := ρ) state = .acquire next) :
      Next next state
  | release {state next : σ} (releases : Task.step (ρ := ρ) state = .release next) :
      Next next state

/-- From a state on, the task comes to an end. -/
def Halting (state : σ) : Prop :=
  Acc Next state

private theorem halting_of_ended {state : σ} {result : ρ}
    (ended : Task.step state = .ended result) :
    Halting state := by
  constructor
  intro next after
  cases after with
  | ask asks => cases ended.symm.trans asks
  | acquire acquires => cases ended.symm.trans acquires
  | release releases => cases ended.symm.trans releases

private theorem halting_of_ask {state : σ} {request : Request} {resume : request.Answer → σ}
    (asks : Task.step (ρ := ρ) state = .ask request resume)
    (halting : ∀ answer, ¬Unstable request answer → Halting (resume answer)) :
    Halting state := by
  constructor
  intro next after
  cases after with
  | ask asked answer settled =>
      cases asks.symm.trans asked
      exact halting answer settled
  | acquire acquires => cases asks.symm.trans acquires
  | release releases => cases asks.symm.trans releases

private theorem halting_of_acquire {state next : σ}
    (acquires : Task.step (ρ := ρ) state = .acquire next)
    (halting : Halting next) : Halting state := by
  constructor
  intro other after
  cases after with
  | ask asks => cases acquires.symm.trans asks
  | acquire acquired =>
      cases acquires.symm.trans acquired
      exact halting
  | release releases => cases acquires.symm.trans releases

private theorem halting_of_release {state next : σ}
    (releases : Task.step (ρ := ρ) state = .release next)
    (halting : Halting next) : Halting state := by
  constructor
  intro other after
  cases after with
  | ask asks => cases releases.symm.trans asks
  | acquire acquires => cases releases.symm.trans acquires
  | release released =>
      cases releases.symm.trans released
      exact halting

end Task

/-! ### Reconciliations -/

namespace Reconciliation

open FunctionBundler.Task

variable {deployment : Deployment}

private theorem halting_leaving {stage : Stage}
    (halting : Halting (mk deployment (.outside stage))) :
    Halting (mk deployment (.leaving stage)) :=
  halting_of_release rfl halting

/-- An errand comes to an end, if what follows each answer does. -/
theorem halting_before {errand : Errand}
    (halting : ∀ answer, ¬Unstable (.call (deployment.callOf errand)) answer →
      Halting (mk deployment (.outside (deployment.after errand answer)))) :
    Halting (mk deployment (.outside (.before errand))) :=
  halting_of_acquire rfl
    (halting_of_ask rfl fun answer settled => halting_leaving (halting answer settled))

private theorem halting_ended (result : Except DeployFailure DeployReport) :
    Halting (mk deployment (.outside (.ended result))) :=
  halting_of_ended rfl

private theorem halting_poll {progress : Progress} {since : Nat}
    (goesOn : Halting (mk deployment (.outside
      (deployment.proceed progress.plan progress.code progress.later)))) :
    Halting (mk deployment (.outside (.before (.poll progress since)))) := by
  apply halting_before
  intro answer settled
  cases answer with
  | error failure => exact halting_ended _
  | ok stable =>
      cases stable with
      | true => exact goesOn
      | false => exact absurd rfl settled

/-- By induction on the actions that are left. -/
theorem halting_proceed (actions : List DeployAction) (code : Payload) (left : List DeployAction) :
    Halting (mk deployment (.outside (deployment.proceed actions code left))) := by
  induction left with
  | nil => exact halting_ended _
  | cons action later ih =>
      apply halting_before
      intro answer _
      cases answer with
      | error failure => exact halting_ended _
      | ok done => exact halting_of_ask rfl fun now _ => halting_poll ih

private theorem halting_carryOut (actions : List DeployAction) :
    Halting (mk deployment (.outside (deployment.carryOut actions))) := by
  rw [Deployment.carryOut]
  split
  case isTrue =>
      split
      case h_1 bucket _ =>
          apply halting_before
          intro answer _
          cases answer with
          | error failure => exact halting_ended _
          | ok done => exact halting_proceed _ _ _
      case h_2 => exact halting_ended _
  case isFalse => exact halting_proceed _ _ _

private theorem halting_lookUp : Halting (mk deployment (.outside (.before .lookUp))) := by
  apply halting_before
  intro answer _
  cases answer with
  | error failure => exact halting_ended _
  | ok remote =>
      change Halting (mk deployment (.outside (deployment.decide remote)))
      unfold Deployment.decide
      dsimp only
      split
      case isTrue => exact halting_ended _
      case isFalse => exact halting_carryOut _

private theorem halting_stage (stage : Stage) : Halting (mk deployment (.outside stage)) := by
  have poll (progress : Progress) (since : Nat) :
      Halting (mk deployment (.outside (.before (.poll progress since)))) :=
    halting_poll (halting_proceed _ _ _)
  have pause (progress : Progress) (since : Nat) :
      Halting (mk deployment (.outside (.pausing progress since))) :=
    halting_of_ask rfl fun _ _ => poll progress since
  cases stage with
  | before errand =>
      cases errand with
      | lookUp => exact halting_lookUp
      | poll progress since => exact poll progress since
      | upload actions bucket =>
          apply halting_before
          intro answer _
          cases answer with
          | error failure => exact halting_ended _
          | ok done => exact halting_proceed _ _ _
      | change progress action =>
          apply halting_before
          intro answer _
          cases answer with
          | error failure => exact halting_ended _
          | ok done => exact halting_of_ask rfl fun now _ => poll progress now
  | timing progress => exact halting_of_ask rfl fun now _ => poll progress now
  | checking progress since =>
      apply halting_of_ask rfl
      intro now _
      change Halting (mk deployment (.outside (deployment.check progress since now)))
      rw [Deployment.check]
      split
      case isTrue => exact halting_ended _
      case isFalse => exact pause progress since
  | pausing progress since => exact pause progress since
  | ended result => exact halting_ended result

/-- Every reconciliation comes to an end. -/
theorem halting (reconciliation : Reconciliation) : Halting reconciliation := by
  obtain ⟨deployment, position⟩ := reconciliation
  cases position with
  | outside stage => exact halting_stage stage
  | leaving stage => exact halting_leaving (halting_stage stage)
  | calling errand =>
      -- The same step leads out of the call when it is reached from outside.
      exact (halting_stage (.before errand)).inv (.acquire rfl)

end Reconciliation

/-! ### Entry points -/

namespace EntryTask

open FunctionBundler.Task

private theorem halting_ended (build : Build) (entry : EntryPoint) (outcome : Outcome) :
    Halting (mk build entry (.ended outcome)) :=
  halting_of_ended rfl

private theorem halting_leave {task : EntryTask} {outcome : Outcome}
    (leaves : Task.step task = task.leave outcome) : Halting task :=
  halting_of_ask leaves fun _ _ => halting_ended _ _ _

private theorem halting_deploying (build : Build) (entry : EntryPoint)
    (reconciliation : Reconciliation) :
    Halting (mk build entry (.deploying reconciliation)) := by
  have ends := reconciliation.halting
  induction ends with
  | intro reconciliation _ ih =>
      have step := @step_deploying build entry reconciliation
      cases taken : Task.step reconciliation with
      | ask request resume =>
          rw [taken] at step
          exact halting_of_ask step fun answer settled => ih _ (.ask taken answer settled)
      | acquire next =>
          rw [taken] at step
          exact halting_of_acquire step (ih _ (.acquire taken))
      | release next =>
          rw [taken] at step
          exact halting_of_release step (ih _ (.release taken))
      | ended result =>
          rw [taken] at step
          cases result with
          | ok report => exact halting_leave step
          | error failure => exact halting_leave step

private theorem halting_packaging (build : Build) (entry : EntryPoint)
    (rest : Talk (Except Failure Packaged)) :
    Halting (mk build entry (.packaging rest)) := by
  induction rest with
  | ask request resume ih => exact halting_of_ask rfl fun answer _ => ih answer
  | done result =>
      let task : EntryTask := ⟨build, entry, .packaging (.done result)⟩
      have step : Task.step task = task.afterPackaging result := rfl
      cases result with
      | error failure => exact halting_leave step
      | ok packaged =>
          rw [afterPackaging] at step
          cases deploys : build.deployment? packaged with
          | none =>
              rw [deploys] at step
              exact halting_leave step
          | some deployment =>
              rw [deploys] at step
              exact halting_of_ask step fun _ _ => halting_deploying build entry _

/-- The task of an entry point comes to an end. -/
theorem halting (task : EntryTask) : Halting task := by
  obtain ⟨build, entry, stage⟩ := task
  cases stage with
  | arriving => exact halting_of_ask rfl fun _ _ => halting_packaging build entry _
  | packaging rest => exact halting_packaging build entry rest
  | deploying reconciliation => exact halting_deploying build entry reconciliation
  | ended outcome => exact halting_ended build entry outcome

end EntryTask

/-! ### Pools -/

namespace Pool

variable {σ ρ : Type} [Task σ ρ]

/-- What a slot can hold after one step of its task. -/
inductive SlotNext : Slot σ → Slot σ → Prop where
  | active {state next : σ} (after : Task.Next next state) : SlotNext (.active next) (.active state)
  | aborted (cause : String) (state : σ) : SlotNext (.aborted cause) (.active state)

private theorem acc_slot (halting : ∀ state : σ, Task.Halting state) (slot : Slot σ) :
    Acc SlotNext slot := by
  have aborted (cause : String) : Acc (@SlotNext σ ρ _) (.aborted cause) := by
    constructor
    intro next after
    cases after
  cases slot with
  | aborted => exact aborted _
  | active state =>
      have ends := halting state
      induction ends with
      | intro state _ ih =>
          constructor
          intro next after
          cases after with
          | active after => exact ih _ after
          | aborted => exact aborted _

/-- One element of a list steps. -/
inductive OneNext {α : Type} (next : α → α → Prop) : List α → List α → Prop where
  | mk {elements : List α} {index : Nat} {before after : α}
      (there : elements[index]? = some before) (steps : next after before) :
      OneNext next (elements.set index after) elements

private theorem acc_cons {α : Type} {next : α → α → Prop} {first : α} (firstEnds : Acc next first)
    {rest : List α} (restEnds : Acc (OneNext next) rest) : Acc (OneNext next) (first :: rest) := by
  induction firstEnds generalizing rest with
  | intro first _ ihFirst =>
      induction restEnds with
      | intro rest others ihRest =>
          constructor
          intro elements after
          generalize whole : first :: rest = before at after
          cases after with
          | @mk _ index old new there steps =>
              subst whole
              cases index with
              | zero =>
                  cases there
                  exact ihFirst new steps (.intro rest others)
              | succ index => exact ihRest _ (.mk there steps)

/-- A list in which one element steps at a time comes to an end, if each element does. -/
theorem acc_oneNext {α : Type} {next : α → α → Prop} (elements : List α)
    (ends : ∀ element ∈ elements, Acc next element) : Acc (OneNext next) elements := by
  induction elements with
  | nil =>
      constructor
      intro elements after
      generalize whole : ([] : List α) = before at after
      cases after with
      | mk there =>
          subst whole
          cases there
  | cons first rest ih =>
      obtain ⟨firstEnds, restEnds⟩ := List.forall_mem_cons.mp ends
      exact acc_cons firstEnds (ih restEnds)

/-- What a pool can be after one turn, unless it tells that a function is not stable. -/
def Goes (next pool : Pool σ) : Prop :=
  ∃ index asked, pool.Takes index asked next ∧
    ∀ request answer, asked = some ⟨request, .answered answer⟩ → ¬Unstable request answer

private theorem oneNext_of_goes {next pool : Pool σ} (goes : Goes next pool) :
    OneNext SlotNext next.slots pool.slots := by
  obtain ⟨index, asked, takes, settled⟩ := goes
  cases takes with
  | acquires active acquires => exact .mk active (.active (.acquire acquires))
  | releases active releases => exact .mk active (.active (.release releases))
  | answered active asks answer =>
      exact .mk active (.active (.ask asks answer (settled _ _ rfl)))
  | panicked active => exact .mk active (.aborted _ _)

/-- Tasks that come to an end cannot go on for ever side by side. -/
theorem wellFounded_goes (halting : ∀ state : σ, Task.Halting state) :
    WellFounded (@Goes σ ρ _) := by
  have slots : WellFounded (OneNext (@SlotNext σ ρ _)) :=
    ⟨fun elements => acc_oneNext elements fun slot _ => acc_slot halting slot⟩
  have below : Subrelation (@Goes σ ρ _) (InvImage (OneNext SlotNext) Pool.slots) := oneNext_of_goes
  exact below.wf (InvImage.wf Pool.slots slots)

end Pool

end FunctionBundler
