/-
Module: FunctionBundler.Proofs.Deploy.Preview
Purpose: A dry run only looks, and its report is that of the run that it stands for.
Trusted boundary: none
Main exports:
  RemoteCall.action?, Deployment.preview, Reconciliation.Rehearses,
  Reconciliation.rehearses_of_runs, Reconciliation.function_of_ended,
  Reconciliation.rehearsal_foretells
-/
import FunctionBundler.Proofs.Deploy.Reconcile

namespace FunctionBundler

/-!
A dry run and a run that applies its plan do the same up to the answer to the
lookup.  There the dry run ends, with the report of the plan.  The other one may
end in many ways, but if it ends well it has made the changes of the same plan,
and of a change one can tell which action it was made for.
-/

/-- The action that a change was made for.  Only a change of the role mentions one. -/
def RemoteCall.action? : RemoteCall → Option DeployAction
  | .create _ => some .create
  | .updateCode _ _ => some .updateCode
  | .updateConfig _ change => some (if change.role.isSome then .updateRole else .updateConfig)
  | .lookUp _ | .isStable _ | .upload _ _ _ => none

namespace Deployment

variable {deployment : Deployment}

/-- What a dry run makes of the answer to the lookup. -/
def preview (deployment : Deployment) :
    Except DeployFailure (Option RemoteFunction) → Except DeployFailure DeployReport
  | .ok remote => .ok (deployment.report (deployment.planFor remote))
  | .error failure => .error failure

private theorem after_lookUp_of_dryRun (rehearses : deployment.options.dryRun = true)
    (answer : Except DeployFailure (Option RemoteFunction)) :
    deployment.after .lookUp answer = .ended (deployment.preview answer) := by
  cases answer with
  | error failure => rfl
  | ok remote => exact if_pos (Or.inr rehearses)

private theorem action?_changeCall (code : Payload) (action : DeployAction) :
    (deployment.changeCall code action).action? = some action := by
  cases action <;> rfl

/-- Only changes are made for an action. -/
theorem filterMap_action?_changes (said : List Spoken) :
    (changes said).filterMap RemoteCall.action? =
      (said.map fun exchange => exchange.1).filterMap RemoteCall.action? := by
  rw [changes, List.filterMap_filter]
  congr 1
  funext call
  cases call <;> rfl

private theorem filterMap_action?_map_changeCall (code : Payload) (actions : List DeployAction) :
    (actions.map (deployment.changeCall code)).filterMap RemoteCall.action? = actions := by
  have recognized : RemoteCall.action? ∘ deployment.changeCall code = some :=
    funext (action?_changeCall code)
  rw [List.filterMap_map, recognized, List.filterMap_some]

end Deployment

namespace Reconciliation

open Deployment

variable {deployment : Deployment} {exchanges : List Exchanged} {last : Reconciliation}

/-- The answer to a lookup, as a reconciliation gets it. -/
def lookedUp (function : FunctionName)
    (answer : Except DeployFailure (Option RemoteFunction)) : Exchanged :=
  ⟨.call (.lookUp function), answer⟩

private theorem step_calling (errand : Errand) :
    Task.step (Reconciliation.mk deployment (.calling errand)) =
      .ask (.call (deployment.callOf errand)) fun answer =>
        ⟨deployment, .leaving (deployment.after errand answer)⟩ :=
  rfl

/-- A reconciliation does nothing before it has looked its function up. -/
theorem runs_start_cases (runs : Task.Runs (start deployment) exchanges last) :
    (exchanges = [] ∧
      (last = start deployment ∨ last = ⟨deployment, .calling .lookUp⟩)) ∨
    ∃ answer later, exchanges = lookedUp deployment.function answer :: later ∧
      Task.Runs (Reconciliation.mk deployment (.leaving (deployment.after .lookUp answer)))
        later last := by
  rcases Task.Runs.of_acquire rfl runs with ⟨rfl, rfl⟩ | called
  · exact Or.inl ⟨rfl, Or.inl rfl⟩
  rcases Task.Runs.of_ask (step_calling .lookUp) called with ⟨rfl, rfl⟩ | ⟨answer, later, rfl, left⟩
  · exact Or.inl ⟨rfl, Or.inr rfl⟩
  · exact Or.inr ⟨answer, later, rfl, left⟩

/-! ### Dry runs -/

/-- From here a dry run says the rest of what it has to say, and ends with a result. -/
def EndsWith (reconciliation : Reconciliation) (later : List Exchanged)
    (result : Except DeployFailure DeployReport) : Prop :=
  ∃ stop, Task.Runs reconciliation later stop ∧ Task.step stop = .ended result

/-- What a dry run has said and what it will still say: it has not looked its function up and
will end whatever the answer, or it has, and ends without another word. -/
inductive Rehearses (deployment : Deployment) (last : Reconciliation) :
    List Exchanged → Prop where
  | toLookUp
      (ends : ∀ answer,
        last.EndsWith [lookedUp deployment.function answer] (deployment.preview answer)) :
      Rehearses deployment last []
  | hasLookedUp (answer : Except DeployFailure (Option RemoteFunction))
      (ends : last.EndsWith [] (deployment.preview answer)) :
      Rehearses deployment last [lookedUp deployment.function answer]

private theorem endsWith_calling (rehearses : deployment.options.dryRun = true)
    (answer : Except DeployFailure (Option RemoteFunction)) :
    (Reconciliation.mk deployment (.calling .lookUp)).EndsWith
      [lookedUp deployment.function answer] (deployment.preview answer) := by
  refine ⟨_, .ask (step_calling .lookUp) answer (.release rfl (.here _)), ?_⟩
  rw [step_eq_ended_iff]
  exact congrArg Position.outside (after_lookUp_of_dryRun rehearses answer)

private theorem endsWith_start (rehearses : deployment.options.dryRun = true)
    (answer : Except DeployFailure (Option RemoteFunction)) :
    (start deployment).EndsWith [lookedUp deployment.function answer]
      (deployment.preview answer) := by
  obtain ⟨stop, runs, ended⟩ := endsWith_calling rehearses answer
  exact ⟨stop, .acquire rfl runs, ended⟩

/-- Every run of a dry run has said, and will say, no more than the lookup. -/
theorem rehearses_of_runs (rehearses : deployment.options.dryRun = true)
    (runs : Task.Runs (start deployment) exchanges last) :
    Rehearses deployment last exchanges := by
  rcases runs_start_cases runs with ⟨rfl, rfl | rfl⟩ | ⟨answer, later, rfl, left⟩
  · exact .toLookUp (endsWith_start rehearses)
  · exact .toLookUp (endsWith_calling rehearses)
  · rw [after_lookUp_of_dryRun rehearses answer] at left
    rcases Task.Runs.of_release rfl left with ⟨rfl, rfl⟩ | ended
    · exact .hasLookedUp answer ⟨_, .release rfl (.here _), rfl⟩
    · obtain ⟨rfl, rfl⟩ := Task.Runs.of_ended rfl ended
      exact .hasLookedUp answer ⟨_, .here _, rfl⟩

/-- A dry run that has ended has looked its function up and makes of the answer what it has to. -/
theorem Rehearses.of_ended {result : Except DeployFailure DeployReport}
    (rehearsed : Rehearses deployment last exchanges) (ended : Task.step last = .ended result) :
    ∃ answer, exchanges = [lookedUp deployment.function answer] ∧
      result = deployment.preview answer := by
  cases rehearsed with
  | toLookUp ends =>
      obtain ⟨stop, runs, -⟩ := ends (.ok none)
      exact absurd (Task.Runs.of_ended ended runs).1 (List.cons_ne_nil _ _)
  | hasLookedUp answer ends =>
      obtain ⟨stop, runs, stopped⟩ := ends
      obtain ⟨-, rfl⟩ := Task.Runs.of_ended ended runs
      cases ended.symm.trans stopped
      exact ⟨answer, rfl, rfl⟩

/-! ### Runs that apply their plan -/

/-- A run that applies its plan and ends well got an answer to its lookup; it reports the plan
for that answer, and made the changes for it, one for each action and in their order. -/
theorem ended_ok_of_runs {report : DeployReport} (applies : deployment.options.dryRun = false)
    (runs : Task.Runs (start deployment) exchanges last)
    (ended : Task.step last = .ended (.ok report)) :
    ∃ remote later code, exchanges = lookedUp deployment.function (.ok remote) :: later ∧
      deployment.preview (.ok remote) = .ok report ∧
      changes (dialogue exchanges) = report.actions.map (deployment.changeCall code) := by
  have orderly := (conversation_of_runs applies runs ended).orderly
  rcases runs_start_cases runs with ⟨-, rfl | rfl⟩ | ⟨answer, later, rfl, -⟩
  · cases ended
  · cases ended
  cases answer with
  | error failure =>
      obtain ⟨-, same⟩ := orderly.failsLast
      cases same
  | ok remote =>
      obtain ⟨code, -, good⟩ := orderly.planned rfl
      obtain ⟨rfl, made, -⟩ := (good report).mp rfl
      exact ⟨remote, later, code, rfl, rfl, made⟩

/-- A reconciliation that ends well reports the function that it is about. -/
theorem function_of_ended {report : DeployReport}
    (runs : Task.Runs (start deployment) exchanges last)
    (ended : Task.step last = .ended (.ok report)) : report.function = deployment.function := by
  cases mode : deployment.options.dryRun with
  | true =>
      obtain ⟨answer, -, reported⟩ := (rehearses_of_runs mode runs).of_ended ended
      cases answer <;> cases reported
      rfl
  | false =>
      obtain ⟨remote, -, -, -, reported, -⟩ := ended_ok_of_runs mode runs ended
      cases reported
      rfl

/-- A dry run looks its function up and does nothing else: whatever the archive, the options
and the plan, it has said nothing or only the lookup, and it ends with the failure of the
lookup or with a report, whatever the answer.  A run with the same arguments that applies
its plan and ends well reports what a dry run reports after the same answer, and the actions
of that report are those of the changes that it made, in their order. -/
theorem rehearsal_foretells (target : String) (archive : Archive) (parameters : Parameters)
    (role : String) (options : DeployOptions) :
    let function := FunctionName.compute target parameters
    let rehearsal : Deployment :=
      ⟨function, archive, parameters, role, { options with dryRun := true }⟩
    let applied : Deployment :=
      ⟨function, archive, parameters, role, { options with dryRun := false }⟩
    (∀ {exchanges last}, Task.Runs (start rehearsal) exchanges last →
      Rehearses rehearsal last exchanges ∧
      ∀ {result}, Task.step last = .ended result →
        ∃ answer, exchanges = [lookedUp function answer] ∧ result = rehearsal.preview answer) ∧
    ∀ {exchanges last report}, Task.Runs (start applied) exchanges last →
      Task.step last = .ended (.ok report) →
      ∃ remote later, exchanges = lookedUp function (.ok remote) :: later ∧
        (start rehearsal).EndsWith [lookedUp function (.ok remote)] (.ok report) ∧
        (∃ code, changes (dialogue exchanges) = report.actions.map (applied.changeCall code)) ∧
        ((dialogue exchanges).map fun exchange => exchange.1).filterMap RemoteCall.action? =
          report.actions := by
  intro function rehearsal applied
  have rehearses : rehearsal.options.dryRun = true := rfl
  have applies : applied.options.dryRun = false := rfl
  constructor
  · intro exchanges last runs
    have rehearsed := rehearses_of_runs rehearses runs
    exact ⟨rehearsed, rehearsed.of_ended⟩
  · intro exchanges last report runs ended
    obtain ⟨remote, later, code, began, reported, made⟩ :=
      ended_ok_of_runs applies runs ended
    have ends := endsWith_start rehearses (.ok remote)
    -- The plan does not depend on the options, so neither does what is made of the answer.
    have same : rehearsal.preview (.ok remote) = .ok report := reported
    rw [same] at ends
    refine ⟨remote, later, began, ends, ⟨code, made⟩, ?_⟩
    rw [← filterMap_action?_changes, made, filterMap_action?_map_changeCall]

/-- A function with an old role and an old timeout: both are announced, and both are set. -/
theorem rehearsal_foretells_updates :
    let parameters : Parameters := ⟨"handler", 256, 10, 512⟩
    let function := FunctionName.compute "app" parameters
    let archive := Archive.ofBytes []
    let remote : RemoteFunction := ⟨archive.digest.base64, "old", some 256, some 3⟩
    let applied : Deployment := ⟨function, archive, parameters, "role", .standard⟩
    let rehearsal : Deployment :=
      ⟨function, archive, parameters, "role", { DeployOptions.standard with dryRun := true }⟩
    (start rehearsal).EndsWith [lookedUp function (.ok (some remote))]
      (.ok ⟨function, [.updateRole, .updateConfig]⟩) ∧
    ∃ exchanges last, Task.Runs (start applied) exchanges last ∧
      Task.step last = .ended (.ok ⟨function, [.updateRole, .updateConfig]⟩) ∧
      ((dialogue exchanges).map fun exchange => exchange.1).filterMap RemoteCall.action? =
        [.updateRole, .updateConfig] := by
  intro parameters function archive remote applied rehearsal
  have recognized : archive.digest.matches remote.codeDigest = true :=
    archive.digest.matches_base64
  have planned : applied.planFor (some remote) = [.updateRole, .updateConfig] := by
    rw [planFor, plan, recognized]
    rfl
  have direct : ¬applied.Uploads (applied.planFor (some remote)) := by
    rw [planned]
    exact fun uploads => absurd uploads.1 (by decide)
  have rounds : ∃ said,
      Rounds applied (.inline archive.bytes) (applied.planFor (some remote)) said none := by
    rw [planned]
    exact ⟨_, .applied () .stable (.applied () .stable .done)⟩
  obtain ⟨told, rounds⟩ := rounds
  obtain ⟨exchanges, runs, said⟩ := leads_of_conversation rfl (.direct direct rounds)
  rw [planned] at runs
  obtain ⟨known, later, began, ends, -, made⟩ :=
    (rehearsal_foretells "app" archive parameters "role" .standard).2 runs rfl
  have same : known = some remote := by
    rw [began] at said
    cases said
    rfl
  rw [same] at ends
  exact ⟨ends, exchanges, _, runs, rfl, made⟩

end Reconciliation

end FunctionBundler
