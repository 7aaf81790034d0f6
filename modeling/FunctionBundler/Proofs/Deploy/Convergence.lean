/-
Module: FunctionBundler.Proofs.Deploy.Convergence
Purpose: What a reconciliation leaves behind on a platform that honours its calls.
Trusted boundary: none
Main exports:
  Platform.Honours, Platform.Serves, Deployment.exists_apply_of_conversation,
  Reconciliation.dialogue_of_upToDate, Reconciliation.runs_converge
-/
import FunctionBundler.Proofs.Deploy.Reconcile

namespace FunctionBundler

/-!
A platform that honours its calls is changed by a conversation as by the changes
that are made in it, after the archive was put into the store if it was too large
to travel with a call.  So what a reconciliation with a report leaves behind is
what its plan does to the function, and a second one finds nothing to do.
-/

namespace Platform

/-- Whether a platform that honours its calls can answer one like this and then be like that.
Whether a function is stable is its own affair, and nothing is known after a call that failed. -/
def Honours (platform : Platform) (exchange : Spoken) (next : Platform) : Prop :=
  ∀ result, exchange.2 = .ok result →
    next = (platform.perform exchange.1).2 ∧
      ((∃ function, exchange.1 = .isStable function) ∨ result = (platform.perform exchange.1).1)

/-- A platform that honours its calls goes through a dialogue. -/
inductive Serves : Platform → List Spoken → Platform → Prop where
  | nil (platform : Platform) : Serves platform [] platform
  | cons {platform next last : Platform} {exchange : Spoken} {later : List Spoken}
      (honours : platform.Honours exchange next) (serves : Serves next later last) :
      Serves platform (exchange :: later) last

private theorem serves_nil_iff {platform last : Platform} :
    platform.Serves [] last ↔ last = platform := by
  constructor
  · intro serves
    cases serves
    rfl
  · intro same
    subst same
    exact .nil last

private theorem serves_cons_iff {platform last : Platform} {exchange : Spoken}
    {later : List Spoken} :
    platform.Serves (exchange :: later) last ↔
      ∃ next, platform.Honours exchange next ∧ next.Serves later last := by
  constructor
  · intro serves
    cases serves with
    | cons honours serves => exact ⟨_, honours, serves⟩
  · intro parts
    rcases parts with ⟨next, honours, serves⟩
    exact .cons honours serves

private theorem serves_append_iff {platform last : Platform} {before after : List Spoken} :
    platform.Serves (before ++ after) last ↔
      ∃ middle, platform.Serves before middle ∧ middle.Serves after last := by
  induction before generalizing platform with
  | nil => simp [serves_nil_iff]
  | cons exchange before ih =>
      rw [List.cons_append, serves_cons_iff]
      constructor
      · intro parts
        rcases parts with ⟨next, honours, serves⟩
        obtain ⟨middle, first, second⟩ := ih.mp serves
        exact ⟨middle, .cons honours first, second⟩
      · intro parts
        rcases parts with ⟨middle, first, second⟩
        obtain ⟨next, honours, first⟩ := serves_cons_iff.mp first
        exact ⟨next, honours, ih.mpr ⟨middle, first, second⟩⟩

private theorem honours_perform (platform : Platform) (call : RemoteCall) :
    platform.Honours ⟨call, .ok (platform.perform call).1⟩ (platform.perform call).2 := by
  intro result answered
  cases answered
  exact ⟨rfl, Or.inr rfl⟩

private theorem honours_ok {platform next : Platform} {call : RemoteCall} {result : call.Result}
    (honours : platform.Honours ⟨call, .ok result⟩ next) : next = (platform.perform call).2 :=
  (honours result rfl).1

private theorem eq_functions_of_honours {platform next : Platform} {function : FunctionName}
    {remote : Option RemoteFunction}
    (honours : platform.Honours ⟨.lookUp function, .ok remote⟩ next) :
    remote = platform.functions function := by
  rcases (honours remote rfl).2 with ⟨other, isPoll⟩ | same
  · cases isPoll
  · exact same

end Platform

namespace Deployment

variable {deployment : Deployment} {platform last : Platform}

private theorem eq_of_serves_polls {polls : List Spoken} (said : Polls deployment polls none)
    (serves : platform.Serves polls last) : last = platform := by
  generalize good : (none : Option DeployFailure) = outcome at said
  induction said with
  | stable =>
      obtain ⟨next, honours, serves⟩ := Platform.serves_cons_iff.mp serves
      rw [Platform.serves_nil_iff.mp serves, Platform.honours_ok honours]
      rfl
  | failed | timedOut => cases good
  | again _ _ ih =>
      obtain ⟨next, honours, servesLater⟩ := Platform.serves_cons_iff.mp serves
      have same : next = platform := Platform.honours_ok honours
      exact ih (same ▸ servesLater) good

private theorem eq_apply_of_serves_rounds {code : Payload} {actions : List DeployAction}
    {said : List Spoken} (rounds : Rounds deployment code actions said none)
    (serves : platform.Serves said last) : last = deployment.apply code platform actions := by
  generalize good : (none : Option DeployFailure) = outcome at rounds
  induction rounds generalizing platform with
  | done => exact Platform.serves_nil_iff.mp serves
  | refused | unstable => cases good
  | applied _ tookEffect _ ih =>
      obtain ⟨next, honours, serves⟩ := Platform.serves_cons_iff.mp serves
      obtain ⟨middle, waited, serves⟩ := Platform.serves_append_iff.mp serves
      have changed := Platform.honours_ok honours
      have same := eq_of_serves_polls tookEffect waited
      rw [same, changed] at serves
      exact ih serves good

private theorem conclude_eq_ok {actions : List DeployAction} {outcome : Option DeployFailure}
    {report : DeployReport} (ended : deployment.conclude actions outcome = .ok report) :
    outcome = none ∧ report = deployment.report actions := by
  cases outcome with
  | none => exact ⟨rfl, (Except.ok.inj ended).symm⟩
  | some failure => cases ended

/-- A conversation that ends with a report leaves behind what the plan does to the
function, with the code of the archive in the call or in the store. -/
theorem exists_apply_of_conversation {said : List Spoken} {report : DeployReport}
    (conversation : Conversation deployment said (.ok report))
    (serves : platform.Serves said last) :
    ∃ code stocked, stocked.functions = platform.functions ∧
      stocked.codeDigest code = (Sha256.digest deployment.archive.bytes).base64 ∧
      last = deployment.apply code stocked
        (deployment.planFor (platform.functions deployment.function)) ∧
      report = deployment.report
        (deployment.planFor (platform.functions deployment.function)) := by
  generalize ended : (Except.ok report : Except DeployFailure DeployReport) = result at conversation
  cases conversation with
  | unknown | noBucket | notUploaded => cases ended
  | direct direct rounds =>
      obtain ⟨rfl, rfl⟩ := conclude_eq_ok ended.symm
      obtain ⟨next, honours, servesRounds⟩ := Platform.serves_cons_iff.mp serves
      have found := Platform.eq_functions_of_honours honours
      have same : next = platform := Platform.honours_ok honours
      subst found same
      exact ⟨_, next, rfl, rfl, eq_apply_of_serves_rounds rounds servesRounds, rfl⟩
  | @uploaded remote bucket said outcome uploads given rounds =>
      obtain ⟨rfl, rfl⟩ := conclude_eq_ok ended.symm
      obtain ⟨next, honours, servesUpload⟩ := Platform.serves_cons_iff.mp serves
      have found := Platform.eq_functions_of_honours honours
      have same : next = platform := Platform.honours_ok honours
      subst found same
      -- The upload changes the store only, and then the stored code has the archive's digest.
      obtain ⟨stocked, stored, servesRounds⟩ := Platform.serves_cons_iff.mp servesUpload
      have put := Platform.honours_ok stored
      refine ⟨_, stocked, ?_, ?_, eq_apply_of_serves_rounds rounds servesRounds, rfl⟩
      · rw [put]
        rfl
      · rw [put]
        simp [Platform.codeDigest, Platform.perform]

end Deployment

namespace Reconciliation

open Deployment

/-- A reconciliation that finds nothing to do makes one call, whatever its options. -/
theorem dialogue_of_upToDate {deployment : Deployment} {exchanges : List Exchanged}
    {last : Reconciliation} (runs : Task.Runs (start deployment) exchanges last)
    (upToDate : ∀ {remote later},
      dialogue exchanges = ⟨.lookUp deployment.function, .ok remote⟩ :: later →
        deployment.planFor remote = []) :
    (dialogue exchanges = [] ∧ ∀ result, Task.step last ≠ .ended result) ∨
      ∃ answer, dialogue exchanges = [⟨.lookUp deployment.function, answer⟩] := by
  rcases runs.of_acquire rfl with ⟨rfl, rfl⟩ | calling
  · exact Or.inl ⟨rfl, nofun⟩
  rcases calling.of_ask rfl with ⟨rfl, rfl⟩ | ⟨answer, rest, rfl, leaving⟩
  · exact Or.inl ⟨rfl, nofun⟩
  have ends : ∃ result, deployment.after .lookUp answer = .ended result := by
    cases answer with
    | error failure => exact ⟨_, rfl⟩
    | ok remote => exact ⟨_, if_pos (Or.inl (upToDate rfl))⟩
  obtain ⟨result, atEnd⟩ := ends
  refine Or.inr ⟨answer, ?_⟩
  rcases leaving.of_release rfl with ⟨rfl, -⟩ | outside
  · rfl
  · have ended : Task.step (standAt ⟨deployment, .leaving (deployment.after .lookUp answer)⟩
        (deployment.after .lookUp answer)) = .ended result := by
      rw [atEnd]
      rfl
    obtain ⟨rfl, -⟩ := Task.Runs.of_ended ended outside
    rfl

/-- A reconciliation of a function that is up to date can be had, whatever its options. -/
theorem leads_upToDate (deployment : Deployment) {remote : Option RemoteFunction}
    (upToDate : deployment.planFor remote = []) :
    Leads deployment (.before .lookUp) [⟨.lookUp deployment.function, .ok remote⟩]
      (.ok ⟨deployment.function, []⟩) := by
  apply leads_before .lookUp (.ok remote)
  have decided : deployment.decide remote = .ended (.ok (deployment.report _)) :=
    if_pos (Or.inl upToDate)
  have actions : deployment.report (deployment.planFor remote) = ⟨deployment.function, []⟩ := by
    rw [upToDate]
    rfl
  change Leads deployment (deployment.decide remote) [] _
  rw [decided, ← actions]
  exact leads_ended

/-- After a reconciliation with a report, on a platform that honours its calls and for
an archive with the digest of its bytes, the function is up to date.  A second
reconciliation, with any options, makes its one call and finds nothing to do.  And none
of the reported actions, which are those of the plan, could have been left out. -/
theorem runs_converge {deployment : Deployment} (applies : deployment.options.dryRun = false)
    (digested : deployment.archive.digest = Sha256.digest deployment.archive.bytes)
    {before after : Platform} {exchanges : List Exchanged} {last : Reconciliation}
    {report : DeployReport} (runs : Task.Runs (start deployment) exchanges last)
    (serves : before.Serves (dialogue exchanges) after)
    (ended : Task.step last = .ended (.ok report)) :
    deployment.planFor (after.functions deployment.function) = [] ∧
      (∀ options : DeployOptions,
        (∀ {again stop later}, Task.Runs (start { deployment with options }) again stop →
          after.Serves (dialogue again) later →
          (dialogue again).map (·.1) <+: [.lookUp deployment.function] ∧
            ∀ {result}, Task.step stop = .ended result →
              (dialogue again).map (·.1) = [.lookUp deployment.function]) ∧
        ∃ again stop, Task.Runs (start { deployment with options }) again stop ∧
          after.Serves (dialogue again) after ∧
          Task.step stop = .ended (.ok ⟨deployment.function, []⟩)) ∧
      report.actions = deployment.planFor (before.functions deployment.function) ∧
      ∃ code stocked, stocked.functions = before.functions ∧
        after = deployment.apply code stocked report.actions ∧
        ∀ action ∈ report.actions,
          deployment.planFor ((deployment.apply code stocked
            (report.actions.erase action)).functions deployment.function) ≠ [] := by
  obtain ⟨code, stocked, untouched, shipped, rfl, rfl⟩ :=
    exists_apply_of_conversation (conversation_of_runs applies runs ended) serves
  rw [← digested] at shipped
  have upToDate := planFor_apply shipped
  rw [untouched] at upToDate
  refine ⟨upToDate, fun options => ⟨?_, ?_⟩, rfl, code, stocked, untouched, rfl, ?_⟩
  · intro again stop later runsAgain servesAgain
    have found : ∀ {remote said},
        dialogue again = ⟨.lookUp deployment.function, .ok remote⟩ :: said →
          deployment.planFor remote = [] := by
      intro remote said same
      rw [same, Platform.serves_cons_iff] at servesAgain
      obtain ⟨next, honours, -⟩ := servesAgain
      rw [Platform.eq_functions_of_honours honours]
      exact upToDate
    rcases dialogue_of_upToDate runsAgain found with ⟨nothing, going⟩ | ⟨answer, once⟩
    · rw [nothing]
      exact ⟨List.nil_prefix, fun atEnd => absurd atEnd (going _)⟩
    · rw [once]
      exact ⟨List.prefix_refl _, fun _ => rfl⟩
  · obtain ⟨again, runsAgain, said⟩ :=
      leads_upToDate { deployment with options } upToDate
    refine ⟨again, _, runsAgain, ?_, rfl⟩
    rw [said]
    exact .cons (Platform.honours_perform _ _) (.nil _)
  · intro action planned
    change action ∈ deployment.planFor (before.functions deployment.function) at planned
    change deployment.planFor ((deployment.apply code stocked ((deployment.planFor
      (before.functions deployment.function)).erase action)).functions _) ≠ []
    rw [← untouched] at planned ⊢
    exact planFor_apply_erase code planned

/-- A function that was created is up to date. -/
theorem runs_converge_create :
    let deployment : Deployment :=
      ⟨⟨"app"⟩, .ofBytes [], ⟨"handler", 256, 10, 512⟩, "role", .standard⟩
    ∃ exchanges last after, Task.Runs (start deployment) exchanges last ∧
      (Platform.uniform none).Serves (dialogue exchanges) after ∧
      Task.step last = .ended (.ok ⟨⟨"app"⟩, [.create]⟩) ∧
      deployment.planFor (after.functions ⟨"app"⟩) = [] := by
  intro deployment
  have rounds : Rounds deployment (.inline []) [.create] _ none := .applied () .stable .done
  have direct : ¬deployment.Uploads (deployment.planFor none) :=
    fun uploads => absurd uploads.2 (by decide)
  obtain ⟨exchanges, runs, said⟩ := leads_of_conversation rfl (.direct direct rounds)
  have serves : ∃ after, (Platform.uniform none).Serves (dialogue exchanges) after := by
    rw [said]
    exact ⟨_, .cons (Platform.honours_perform _ _)
      (.cons (Platform.honours_perform _ _) (.cons (Platform.honours_perform _ _) (.nil _)))⟩
  obtain ⟨after, serves⟩ := serves
  exact ⟨exchanges, _, after, runs, serves, rfl, (runs_converge rfl rfl runs serves rfl).1⟩

end Reconciliation

end FunctionBundler
