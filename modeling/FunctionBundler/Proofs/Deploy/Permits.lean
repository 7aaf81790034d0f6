/-
Module: FunctionBundler.Proofs.Deploy.Permits
Purpose: Reconciliations side by side make no more calls at a time than there are permits.
Trusted boundary: none
Main exports:
  Reconciliation.regulated_of_course
-/
import FunctionBundler.Deploy.Reconcile
import FunctionBundler.Proofs.Task.Traffic

namespace FunctionBundler

/-!
A reconciliation has a permit in the call of an errand and until it has left it, and
nowhere else: not while it looks at the clock or pauses, and not at its end, whichever
answer ended it.  From the call it comes to giving the permit back by the answer alone.
So any number of reconciliations that share permits keep them regulated.
-/

namespace Reconciliation

variable {deployment : Deployment}

private theorem returns_leaving (stage : Stage) : Task.Returns (mk deployment (.leaving stage)) :=
  .release rfl

private theorem returns_calling (errand : Errand) :
    Task.Returns (mk deployment (.calling errand)) :=
  .ask rfl fun _ => returns_leaving _

instance : Task.Guarded Reconciliation where
  holds_of_ask {reconciliation request resume} asks := by
    obtain ⟨deployment, position⟩ := reconciliation
    cases position with
    | calling errand =>
        cases asks
        rfl
    | leaving stage => cases asks
    | outside stage =>
        cases stage with
        | before | ended => cases asks
        | timing | checking | pausing =>
            cases asks
            rfl
  returns_of_holds {reconciliation} holds := by
    obtain ⟨deployment, position⟩ := reconciliation
    cases position with
    | calling errand => exact returns_calling errand
    | leaving stage => exact returns_leaving stage
    | outside stage => cases holds

/-- Whatever happens to reconciliations that share permits, and in whichever order, their traffic is
regulated. -/
theorem regulated_of_course {permits : Nat} {deployments : List Deployment}
    {history : List Happening} {last : Traffic Reconciliation}
    (course : Traffic.Course (.start permits (deployments.map start)) history last) :
    last.Regulated permits history := by
  have without : ∀ task ∈ deployments.map start, Task.holdsPermit task = false := by
    intro task member
    obtain ⟨deployment, -, rfl⟩ := List.mem_map.mp member
    rfl
  exact (course.accounted without).regulated

/-- While one of two reconciliations looks its function up under the only permit, the other
waits for it. -/
theorem regulated_of_course_contended :
    let deployment : Deployment :=
      ⟨⟨"app"⟩, .ofBytes [], ⟨"handler", 256, 10, 512⟩, "role", .standard⟩
    let history : List Happening := [.acquired 0, .asked 0 (.call (.lookUp ⟨"app"⟩))]
    ∃ last : Traffic Reconciliation,
      Traffic.Course (.start 0 ([deployment, deployment].map start)) history last ∧
      last.pool.free = 0 ∧ last.pool.slots[1]? = some (.active (start deployment)) ∧
      last.Regulated 0 history := by
  intro deployment history
  let begun : Traffic Reconciliation := .start 0 ([deployment, deployment].map start)
  let holding : Traffic Reconciliation :=
    ⟨⟨0, [.active ⟨deployment, .calling .lookUp⟩, .active (start deployment)]⟩, []⟩
  have acquired : begun.Step (.acquired 0) holding := .acquired rfl rfl rfl
  have asked : holding.Step (.asked 0 (.call (.lookUp ⟨"app"⟩))) _ := .asked List.not_mem_nil rfl
  have course := Traffic.Course.concat (.concat (.nil begun) acquired) asked
  exact ⟨_, course, rfl, rfl, regulated_of_course course⟩

end Reconciliation

end FunctionBundler
