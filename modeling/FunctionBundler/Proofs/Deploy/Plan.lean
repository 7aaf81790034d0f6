/-
Module: FunctionBundler.Proofs.Deploy.Plan
Purpose: What the actions of a plan do to a function, all of them or all but one.
Trusted boundary: none
Main exports:
  Deployment.planFor, Deployment.Needs, Deployment.apply, Deployment.planFor_apply,
  Deployment.planFor_apply_erase
-/
import FunctionBundler.Deploy.Reconcile
import FunctionBundler.Proofs.Base64.RoundTrip

namespace FunctionBundler

/-!
A deployed function is out of date in its code, its role or its configuration, and
the plan has an action for each of these.  An action settles what it is for and
leaves the rest alone.  So after a list of actions the function needs exactly
those that it needed before and that are not in the list.
-/

/-- A digest is recognized in its own base64 text. -/
theorem Digest.matches_base64 (digest : Digest) : digest.matches digest.base64 = true := by
  rw [Digest.matches, base64, Base64.trimBlank_encode, String.ofList_toList, Base64.decode_encode]
  exact decide_eq_true rfl

namespace Deployment

variable {deployment : Deployment}

/-- The plan for an answer to the lookup. -/
def planFor (deployment : Deployment) (remote : Option RemoteFunction) : List DeployAction :=
  plan remote deployment.archive.digest deployment.role deployment.parameters

/-- Whether a deployed function is out of date in what an action is for. -/
def Needs (deployment : Deployment) (remote : RemoteFunction) : DeployAction → Prop
  | .create => False
  | .updateCode => deployment.archive.digest.matches remote.codeDigest = false
  | .updateRole => remote.role ≠ deployment.role
  | .updateConfig =>
      ¬(remote.timeout = some deployment.parameters.timeout ∧
        remote.memory = some deployment.parameters.memory)

private theorem mem_planFor_some {remote : RemoteFunction} {action : DeployAction} :
    action ∈ deployment.planFor (some remote) ↔ deployment.Needs remote action := by
  rw [planFor, plan, List.mem_append, List.mem_append]
  cases action <;> simp [Needs]

private theorem planFor_some_eq_nil_iff {remote : RemoteFunction} :
    deployment.planFor (some remote) = [] ↔ ∀ action, ¬deployment.Needs remote action := by
  rw [List.eq_nil_iff_forall_not_mem]
  exact forall_congr' fun action => not_congr mem_planFor_some

private theorem nodup_planFor (remote : Option RemoteFunction) :
    (deployment.planFor remote).Nodup := by
  cases remote with
  | none =>
      change [DeployAction.create].Nodup
      decide
  | some remote =>
      rw [planFor, plan]
      repeat' split
      all_goals decide

/-! ### Actions -/

/-- A function after an action, given the digest text of the code that is shipped. -/
def effect (deployment : Deployment) (codeDigest : String) (action : DeployAction)
    (remote : Option RemoteFunction) : RemoteFunction :=
  let known := remote.getD Platform.blank
  match action with
  | .create =>
      { codeDigest
        role := deployment.role
        memory := some deployment.parameters.memory
        timeout := some deployment.parameters.timeout }
  | .updateCode => { known with codeDigest }
  | .updateRole => { known with role := deployment.role }
  | .updateConfig =>
      { known with
        memory := some deployment.parameters.memory
        timeout := some deployment.parameters.timeout }

/-- The platform after the changes for actions, made one after the other. -/
def apply (deployment : Deployment) (code : Payload) (platform : Platform)
    (actions : List DeployAction) : Platform :=
  actions.foldl (fun platform action =>
    (platform.perform (deployment.changeCall code action)).2) platform

private theorem functions_perform (deployment : Deployment) (platform : Platform) (code : Payload)
    (action : DeployAction) :
    (platform.perform (deployment.changeCall code action)).2.functions deployment.function =
      some (deployment.effect (platform.codeDigest code) action
        (platform.functions deployment.function)) := by
  cases action <;> exact if_pos rfl

private theorem codeDigest_perform (platform : Platform) (code : Payload) (action : DeployAction) :
    (platform.perform (deployment.changeCall code action)).2.codeDigest code =
      platform.codeDigest code := by
  cases action <;> rfl

/-- An action leaves alone what the others are for. -/
theorem needs_effect_iff {remote : RemoteFunction} {action other : DeployAction}
    {codeDigest : String} (deployed : action ≠ .create) (apart : other ≠ action) :
    deployment.Needs (deployment.effect codeDigest action (some remote)) other ↔
      deployment.Needs remote other := by
  cases action <;> cases other <;> simp [Needs, effect] at deployed apart ⊢

/-- An action settles what it is for; creating a function settles everything. -/
theorem not_needs_effect {remote : Option RemoteFunction} {action other : DeployAction}
    {codeDigest : String} (shipped : codeDigest = deployment.archive.digest.base64)
    (settled : action = other ∨ action = .create) :
    ¬deployment.Needs (deployment.effect codeDigest action remote) other := by
  subst shipped
  rcases settled with rfl | rfl
  · cases action <;> simp [Needs, effect, Digest.matches_base64]
  · cases other <;> simp [Needs, effect, Digest.matches_base64]

private theorem needs_apply (code : Payload) {actions : List DeployAction} : ∀ {platform : Platform}
    {remote : RemoteFunction}, platform.functions deployment.function = some remote →
      DeployAction.create ∉ actions →
      ∃ changed,
        (deployment.apply code platform actions).functions deployment.function = some changed ∧
        ∀ other,
          (other ∉ actions → (deployment.Needs changed other ↔ deployment.Needs remote other)) ∧
          (platform.codeDigest code = deployment.archive.digest.base64 → other ∈ actions →
            ¬deployment.Needs changed other) := by
  induction actions with
  | nil =>
      intro platform remote known _
      exact ⟨remote, known, fun other => ⟨fun _ => Iff.rfl, nofun⟩⟩
  | cons action actions ih =>
      intro platform remote known updates
      rw [List.mem_cons, not_or] at updates
      have first := functions_perform deployment platform code action
      obtain ⟨changed, applied, needs⟩ := ih first updates.2
      refine ⟨changed, applied, fun other => ⟨fun notMember => ?_, fun shipped member => ?_⟩⟩
      · rw [List.mem_cons, not_or] at notMember
        rw [(needs other).1 notMember.2, known]
        exact needs_effect_iff (Ne.symm updates.1) notMember.1
      -- What is settled again later is settled there, whatever this action does.
      · by_cases later : other ∈ actions
        · exact (needs other).2 ((codeDigest_perform platform code action).trans shipped) later
        · rw [(needs other).1 later]
          have same : other = action := (List.mem_cons.mp member).resolve_right later
          exact not_needs_effect shipped (Or.inl same.symm)

private theorem create_notMem_planFor (remote : RemoteFunction) :
    DeployAction.create ∉ deployment.planFor (some remote) :=
  fun member => mem_planFor_some.mp member

/-- After its plan a function is up to date. -/
theorem planFor_apply {platform : Platform} {code : Payload}
    (shipped : platform.codeDigest code = deployment.archive.digest.base64) :
    deployment.planFor ((deployment.apply code platform
      (deployment.planFor (platform.functions deployment.function))).functions
        deployment.function) = [] := by
  cases known : platform.functions deployment.function with
  | none =>
      have created := functions_perform deployment platform code .create
      change deployment.planFor ((platform.perform _).2.functions _) = []
      rw [created, planFor_some_eq_nil_iff]
      exact fun action => not_needs_effect shipped (Or.inr rfl)
  | some remote =>
      obtain ⟨changed, applied, needs⟩ := needs_apply code known (create_notMem_planFor remote)
      rw [applied, planFor_some_eq_nil_iff]
      intro action needed
      by_cases planned : action ∈ deployment.planFor (some remote)
      · exact (needs action).2 shipped planned needed
      · exact planned (mem_planFor_some.mpr (((needs action).1 planned).mp needed))

/-- No action of a plan is dispensable. -/
theorem planFor_apply_erase {platform : Platform} (code : Payload) {action : DeployAction}
    (planned : action ∈ deployment.planFor (platform.functions deployment.function)) :
    deployment.planFor ((deployment.apply code platform
      ((deployment.planFor (platform.functions deployment.function)).erase action)).functions
        deployment.function) ≠ [] := by
  cases known : platform.functions deployment.function with
  | none =>
      rw [known] at planned
      have only : action = .create := List.mem_singleton.mp planned
      subst only
      change deployment.planFor (platform.functions deployment.function) ≠ []
      rw [known]
      exact List.cons_ne_nil _ _
  | some remote =>
      rw [known] at planned
      have others : DeployAction.create ∉ (deployment.planFor (some remote)).erase action :=
        fun member => create_notMem_planFor remote (List.mem_of_mem_erase member)
      have left : action ∉ (deployment.planFor (some remote)).erase action :=
        (nodup_planFor (some remote)).not_mem_erase
      obtain ⟨changed, applied, needs⟩ := needs_apply code known others
      have needed := ((needs action).1 left).mpr (mem_planFor_some.mp planned)
      rw [applied]
      exact List.ne_nil_of_mem (mem_planFor_some.mpr needed)

end Deployment

end FunctionBundler
