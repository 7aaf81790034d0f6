/-
Module: FunctionBundler.Proofs.Deploy.Reconcile
Purpose: The runs of a reconciliation and the conversations that they lead.
Trusted boundary: none
Main exports:
  Deployment.Ahead, Reconciliation.ahead_of_runs, Deployment.leads_of_conversation,
  Reconciliation.runs_conversation
-/
import FunctionBundler.Proofs.Deploy.Conversation

namespace FunctionBundler

/-!
`Deployment.Ahead` tells for each stage of a reconciliation what can still be
said and how that ends.  Each step keeps it: what is ahead of the next stage,
after what the step said, was ahead of the stage before.  So every run begins a
conversation, and one that has ended has had a whole one.  In the other direction
the answers of a conversation, together with suitable times on the clock, lead a
run through it.
-/

namespace Deployment

variable {deployment : Deployment} {said : List Spoken}
  {result : Except DeployFailure DeployReport}

/-! ### What is ahead -/

/-- What can be said by an upload and by what follows it. -/
inductive Uploading (deployment : Deployment) (actions : List DeployAction) (bucket : String) :
    List Spoken → Except DeployFailure DeployReport → Prop where
  | failed (failure : DeployFailure) :
      Uploading deployment actions bucket
        [⟨.upload bucket deployment.key deployment.archive.bytes, .error failure⟩] (.error failure)
  | stored {said : List Spoken} {outcome : Option DeployFailure}
      (rounds : Rounds deployment (.stored bucket deployment.key) actions said outcome) :
      Uploading deployment actions bucket
        (⟨.upload bucket deployment.key deployment.archive.bytes, .ok ()⟩ :: said)
        (deployment.conclude actions outcome)

/-- What can be said by polls and by what follows them. -/
inductive Waiting (deployment : Deployment) (progress : Progress) :
    List Spoken → Except DeployFailure DeployReport → Prop where
  | failed {polls : List Spoken} {failure : DeployFailure}
      (failed : Polls deployment polls (some failure)) :
      Waiting deployment progress polls (.error failure)
  | stable {polls said : List Spoken} {outcome : Option DeployFailure}
      (tookEffect : Polls deployment polls none)
      (rounds : Rounds deployment progress.code progress.later said outcome) :
      Waiting deployment progress (polls ++ said) (deployment.conclude progress.plan outcome)

/-- What can be said from a stage on, and the result after it. -/
def Ahead (deployment : Deployment) :
    Stage → List Spoken → Except DeployFailure DeployReport → Prop
  | .before .lookUp, said, result => Conversation deployment said result
  | .before (.upload actions bucket), said, result =>
      Uploading deployment actions bucket said result
  | .before (.change progress action), said, result =>
      ∃ outcome, Rounds deployment progress.code (action :: progress.later) said outcome ∧
        deployment.conclude progress.plan outcome = result
  | .before (.poll progress _), said, result => Waiting deployment progress said result
  | .timing progress, said, result => Waiting deployment progress said result
  | .checking progress _, said, result =>
      (∃ waited, deployment.options.maxWait ≤ waited ∧ said = [] ∧
        .error (.timedOut deployment.function waited) = result) ∨
      (∃ waited, waited < deployment.options.maxWait ∧ Waiting deployment progress said result)
  | .pausing progress _, said, result => Waiting deployment progress said result
  | .ended final, said, result => said = [] ∧ final = result

private theorem ahead_proceed_iff {actions left : List DeployAction} {code : Payload} :
    Ahead deployment (deployment.proceed actions code left) said result ↔
      ∃ outcome, Rounds deployment code left said outcome ∧
        deployment.conclude actions outcome = result := by
  cases left with
  | nil =>
      constructor
      · intro finished
        rcases finished with ⟨rfl, rfl⟩
        exact ⟨none, .done, rfl⟩
      · intro begun
        rcases begun with ⟨outcome, rounds, rfl⟩
        cases rounds
        exact ⟨rfl, rfl⟩
  | cons action later => exact Iff.rfl

private theorem decide_eq (applies : deployment.options.dryRun = false)
    (remote : Option RemoteFunction) :
    deployment.decide remote =
      if deployment.planFor remote = [] then
        .ended (.ok (deployment.report (deployment.planFor remote)))
      else deployment.carryOut (deployment.planFor remote) := by
  by_cases upToDate : deployment.planFor remote = []
  · rw [if_pos upToDate]
    exact if_pos (Or.inl upToDate)
  · rw [if_neg upToDate]
    exact if_neg (not_or.mpr ⟨upToDate, by simp [applies]⟩)

/-- A plan that needs no upload is carried out with the archive in the call. -/
theorem decide_of_direct {remote : Option RemoteFunction}
    (applies : deployment.options.dryRun = false)
    (direct : ¬deployment.Uploads (deployment.planFor remote)) :
    deployment.decide remote = deployment.proceed (deployment.planFor remote)
      (.inline deployment.archive.bytes) (deployment.planFor remote) := by
  rw [decide_eq applies]
  by_cases upToDate : deployment.planFor remote = []
  · rw [if_pos upToDate, upToDate]
    rfl
  · rw [if_neg upToDate, carryOut]
    exact if_neg direct

/-- A plan that needs an upload begins with it, or ends for want of a bucket. -/
theorem decide_of_uploads {remote : Option RemoteFunction}
    (applies : deployment.options.dryRun = false)
    (uploads : deployment.Uploads (deployment.planFor remote)) :
    deployment.decide remote =
      match deployment.options.bucket with
      | some bucket => .before (.upload (deployment.planFor remote) bucket)
      | none => .ended (.error (.missingBucket deployment.function deployment.archive.size)) := by
  rw [decide_eq applies, if_neg (ne_nil_of_uploads uploads), carryOut]
  exact if_pos uploads

private theorem conversation_of_ahead_decide {remote : Option RemoteFunction}
    (applies : deployment.options.dryRun = false)
    (ahead : Ahead deployment (deployment.decide remote) said result) :
    Conversation deployment (⟨.lookUp deployment.function, .ok remote⟩ :: said) result := by
  by_cases uploads : deployment.Uploads (deployment.planFor remote)
  · rw [decide_of_uploads applies uploads] at ahead
    split at ahead
    case h_1 bucket given =>
        cases ahead with
        | failed failure => exact .notUploaded uploads given failure
        | stored rounds => exact .uploaded uploads given rounds
    case h_2 missing =>
        obtain ⟨rfl, rfl⟩ := ahead
        exact .noBucket uploads missing
  · rw [decide_of_direct applies uploads] at ahead
    obtain ⟨outcome, rounds, rfl⟩ := ahead_proceed_iff.mp ahead
    exact .direct uploads rounds

/-- What is ahead after an answer was ahead before the call, behind the call. -/
theorem ahead_of_ahead_after (applies : deployment.options.dryRun = false) (errand : Errand)
    (answer : (deployment.callOf errand).Answer)
    (ahead : Ahead deployment (deployment.after errand answer) said result) :
    Ahead deployment (.before errand) (⟨deployment.callOf errand, answer⟩ :: said) result := by
  cases errand with
  | lookUp =>
      cases answer with
      | error failure =>
          obtain ⟨rfl, rfl⟩ := ahead
          exact .unknown failure
      | ok remote => exact conversation_of_ahead_decide applies ahead
  | upload actions bucket =>
      cases answer with
      | error failure =>
          obtain ⟨rfl, rfl⟩ := ahead
          exact .failed failure
      | ok done =>
          obtain ⟨outcome, rounds, rfl⟩ := ahead_proceed_iff.mp ahead
          exact .stored rounds
  | change progress action =>
      cases answer with
      | error failure =>
          obtain ⟨rfl, rfl⟩ := ahead
          exact ⟨some failure, .refused failure, rfl⟩
      | ok done =>
          cases ahead with
          | failed polls => exact ⟨_, .unstable done polls, rfl⟩
          | stable tookEffect rounds => exact ⟨_, .applied done tookEffect rounds, rfl⟩
  | poll progress since =>
      cases answer with
      | error failure =>
          obtain ⟨rfl, rfl⟩ := ahead
          exact .failed (.failed failure)
      | ok stable =>
          cases stable with
          | true =>
              obtain ⟨outcome, rounds, rfl⟩ := ahead_proceed_iff.mp ahead
              exact .stable .stable rounds
          | false =>
              rcases ahead with ⟨waited, long, rfl, rfl⟩ | ⟨waited, short, waiting⟩
              · exact .failed (.timedOut long)
              · cases waiting with
                | failed polls => exact .failed (.again short polls)
                | stable tookEffect rounds => exact .stable (.again short tookEffect) rounds

private theorem ahead_of_ahead_check {progress : Progress} {since now : Nat}
    (ahead : Ahead deployment (deployment.check progress since now) said result) :
    Ahead deployment (.checking progress since) said result := by
  rw [check] at ahead
  split at ahead
  case isTrue long =>
      obtain ⟨rfl, rfl⟩ := ahead
      exact Or.inl ⟨_, long, rfl, rfl⟩
  case isFalse short => exact Or.inr ⟨_, Nat.lt_of_not_le short, ahead⟩

/-- What can be said from a position on, and the result after it. -/
def AheadAt (deployment : Deployment) :
    Position → List Spoken → Except DeployFailure DeployReport → Prop
  | .outside stage | .leaving stage => Ahead deployment stage
  | .calling errand => Ahead deployment (.before errand)

/-! ### Conversations that can be had -/

/-- A run leads from a stage through a dialogue to a result. -/
def Leads (deployment : Deployment) (stage : Stage) (said : List Spoken)
    (result : Except DeployFailure DeployReport) : Prop :=
  ∃ exchanges, Task.Runs (Reconciliation.mk deployment (.outside stage)) exchanges
    (Reconciliation.mk deployment (.outside (.ended result))) ∧ dialogue exchanges = said

theorem leads_ended : Leads deployment (.ended result) [] result :=
  ⟨[], .here _, rfl⟩

/-- A reconciliation makes the call of an errand and goes on. -/
theorem runs_errand (errand : Errand) (answer : (deployment.callOf errand).Answer) {stage : Stage}
    {later : List Exchanged} {last : Reconciliation}
    (leads : deployment.after errand answer = stage)
    (runs : Task.Runs (Reconciliation.mk deployment (.outside stage)) later last) :
    Task.Runs (Reconciliation.mk deployment (.outside (.before errand)))
      (⟨.call (deployment.callOf errand), answer⟩ :: later) last := by
  subst leads
  have asks : Task.step (Reconciliation.mk deployment (.calling errand)) =
      .ask (.call (deployment.callOf errand)) fun answer =>
        ⟨deployment, .leaving (deployment.after errand answer)⟩ := rfl
  exact .acquire rfl (.ask asks answer (.release rfl runs))

/-- An errand leads on as its answer does. -/
theorem leads_before (errand : Errand) (answer : (deployment.callOf errand).Answer)
    (leads : Leads deployment (deployment.after errand answer) said result) :
    Leads deployment (.before errand) (⟨deployment.callOf errand, answer⟩ :: said) result := by
  obtain ⟨exchanges, runs, rfl⟩ := leads
  exact ⟨_, runs_errand errand answer rfl runs, rfl⟩

private theorem leads_timing {progress : Progress} (now : Nat)
    (leads : Leads deployment (.before (.poll progress now)) said result) :
    Leads deployment (.timing progress) said result := by
  obtain ⟨exchanges, runs, rfl⟩ := leads
  exact ⟨_, .ask rfl now runs, rfl⟩

private theorem leads_checking {progress : Progress} {since : Nat} (now : Nat)
    (leads : Leads deployment (deployment.check progress since now) said result) :
    Leads deployment (.checking progress since) said result := by
  obtain ⟨exchanges, runs, rfl⟩ := leads
  exact ⟨_, .ask rfl now runs, rfl⟩

private theorem leads_pausing {progress : Progress} {since : Nat}
    (leads : Leads deployment (.before (.poll progress since)) said result) :
    Leads deployment (.pausing progress since) said result := by
  obtain ⟨exchanges, runs, rfl⟩ := leads
  exact ⟨_, .ask rfl () runs, rfl⟩

/-- Where a reconciliation stands after the polls of a change. -/
def settled (deployment : Deployment) (progress : Progress) : Option DeployFailure → Stage
  | none => deployment.proceed progress.plan progress.code progress.later
  | some failure => .ended (.error failure)

private theorem leads_polls (progress : Progress) (since : Nat) {polls : List Spoken}
    {outcome : Option DeployFailure} (said : Polls deployment polls outcome) {later : List Spoken}
    (leads : Leads deployment (deployment.settled progress outcome) later result) :
    Leads deployment (.before (.poll progress since)) (polls ++ later) result := by
  let errand : Errand := .poll progress since
  induction said with
  | stable => exact leads_before errand (.ok true) leads
  | failed failure => exact leads_before errand (.error failure) leads
  | @timedOut waited long =>
      -- The clock can tell any time, so it tells the one that the polls ask for.
      apply leads_before errand (.ok false)
      apply leads_checking (since + waited)
      rw [check, Nat.add_sub_cancel_left, if_pos long]
      exact leads
  | @again waited polls outcome short _ ih =>
      apply leads_before errand (.ok false)
      apply leads_checking (since + waited)
      rw [check, Nat.add_sub_cancel_left, if_neg (Nat.not_le_of_lt short)]
      exact leads_pausing (ih leads)

private theorem leads_proceed (actions : List DeployAction) {left : List DeployAction}
    {code : Payload}
    {outcome : Option DeployFailure} (rounds : Rounds deployment code left said outcome) :
    Leads deployment (deployment.proceed actions code left) said
      (deployment.conclude actions outcome) := by
  induction rounds with
  | done => exact leads_ended
  | @refused action later failure =>
      exact leads_before (.change ⟨actions, code, later⟩ action) (.error failure) leads_ended
  | @unstable action later polls failure done failed =>
      have waits := leads_polls ⟨actions, code, later⟩ 0 failed leads_ended
      rw [List.append_nil] at waits
      exact leads_before (.change ⟨actions, code, later⟩ action) (.ok done) (leads_timing 0 waits)
  | @applied action later polls said outcome done tookEffect _ ih =>
      have waits := leads_polls ⟨actions, code, later⟩ 0 tookEffect ih
      exact leads_before (.change ⟨actions, code, later⟩ action) (.ok done) (leads_timing 0 waits)

/-- Every conversation can be had. -/
theorem leads_of_conversation (applies : deployment.options.dryRun = false)
    (conversation : Conversation deployment said result) :
    Leads deployment (.before .lookUp) said result := by
  cases conversation with
  | unknown failure => exact leads_before .lookUp (.error failure) leads_ended
  | @direct remote said outcome direct rounds =>
      have leads := leads_proceed (deployment.planFor remote) rounds
      rw [← decide_of_direct applies direct] at leads
      exact leads_before .lookUp (.ok remote) leads
  | @noBucket remote uploads missing =>
      apply leads_before .lookUp (.ok remote)
      change Leads deployment (deployment.decide remote) _ _
      rw [decide_of_uploads applies uploads, missing]
      exact leads_ended
  | @notUploaded remote bucket uploads given failure =>
      apply leads_before .lookUp (.ok remote)
      change Leads deployment (deployment.decide remote) _ _
      rw [decide_of_uploads applies uploads, given]
      exact leads_before (.upload (deployment.planFor remote) bucket) (.error failure) leads_ended
  | @uploaded remote bucket said outcome uploads given rounds =>
      have leads := leads_proceed (deployment.planFor remote) rounds
      apply leads_before .lookUp (.ok remote)
      change Leads deployment (deployment.decide remote) _ _
      rw [decide_of_uploads applies uploads, given]
      exact leads_before (.upload (deployment.planFor remote) bucket) (.ok ()) leads

/-- From every stage there is a way to an end. -/
theorem exists_leads (stage : Stage) : ∃ said result, Leads deployment stage said result := by
  let failure : DeployFailure := .timedOut deployment.function 0
  have poll (progress : Progress) (since : Nat) :
      Leads deployment (.before (.poll progress since)) _ (.error failure) :=
    leads_before (.poll progress since) (.error failure) leads_ended
  cases stage with
  | before errand =>
      cases errand with
      | lookUp => exact ⟨_, _, leads_before .lookUp (.error failure) leads_ended⟩
      | upload actions bucket =>
          exact ⟨_, _, leads_before (.upload actions bucket) (.error failure) leads_ended⟩
      | change progress action =>
          exact ⟨_, _, leads_before (.change progress action) (.error failure) leads_ended⟩
      | poll progress since => exact ⟨_, _, poll progress since⟩
  | timing progress => exact ⟨_, _, leads_timing 0 (poll progress 0)⟩
  | checking progress since =>
      let now := since + deployment.options.maxWait
      have late : Leads deployment (deployment.check progress since now) []
          (.error (.timedOut deployment.function (now - since))) := by
        rw [check, if_pos (Nat.le_sub_of_add_le' (Nat.le_refl now))]
        exact leads_ended
      exact ⟨_, _, leads_checking now late⟩
  | pausing progress since => exact ⟨_, _, leads_pausing (poll progress since)⟩
  | ended final => exact ⟨_, _, leads_ended⟩

end Deployment

namespace Reconciliation

open Deployment

/-! ### Whole runs -/

/-- What is ahead of the end of a run was ahead of its beginning, behind what the run said. -/
theorem ahead_of_runs {first last : Reconciliation} {exchanges : List Exchanged}
    (runs : Task.Runs first exchanges last) (applies : first.deployment.options.dryRun = false)
    {said : List Spoken} {result : Except DeployFailure DeployReport}
    (ahead : AheadAt last.deployment last.position said result) :
    AheadAt first.deployment first.position (dialogue exchanges ++ said) result := by
  induction runs with
  | here state => exact ahead
  | @ask state last request resume rest asks answer _ ih =>
      obtain ⟨deployment, position⟩ := state
      cases position with
      | calling errand =>
          cases asks
          exact ahead_of_ahead_after applies errand answer (ih applies ahead)
      | leaving stage => cases asks
      | outside stage =>
          cases stage with
          | before errand => cases asks
          | timing progress =>
              cases asks
              exact ih applies ahead
          | checking progress since =>
              cases asks
              exact ahead_of_ahead_check (ih applies ahead)
          | pausing progress since =>
              cases asks
              exact ih applies ahead
          | ended result => cases asks
  | @acquire state next last rest acquires _ ih =>
      obtain ⟨deployment, position⟩ := state
      cases position with
      | calling errand => cases acquires
      | leaving stage => cases acquires
      | outside stage =>
          cases stage with
          | before errand =>
              cases acquires
              exact ih applies ahead
          | timing | checking | pausing | ended => cases acquires
  | @release state next last rest releases _ ih =>
      obtain ⟨deployment, position⟩ := state
      cases position with
      | calling errand => cases releases
      | leaving stage =>
          cases releases
          exact ih applies ahead
      | outside stage => cases stage <;> cases releases

/-- A reconciliation has ended exactly if it stands at its end. -/
theorem step_eq_ended_iff {reconciliation : Reconciliation}
    {result : Except DeployFailure DeployReport} :
    Task.step reconciliation = .ended result ↔
      reconciliation.position = .outside (.ended result) := by
  constructor
  · intro ended
    obtain ⟨deployment, position⟩ := reconciliation
    cases position with
    | calling errand => cases ended
    | leaving stage => cases ended
    | outside stage =>
        cases stage with
        | ended final =>
            cases ended
            rfl
        | before | timing | checking | pausing => cases ended
  · intro atEnd
    obtain ⟨deployment, position⟩ := reconciliation
    cases atEnd
    rfl

/-- A reconciliation can always come to an end. -/
theorem exists_end (reconciliation : Reconciliation) :
    ∃ exchanges last result, Task.Runs reconciliation exchanges last ∧
      Task.step last = .ended result := by
  obtain ⟨deployment, position⟩ := reconciliation
  cases position with
  | outside stage =>
      obtain ⟨said, result, exchanges, runs, -⟩ := exists_leads stage
      exact ⟨exchanges, _, result, runs, rfl⟩
  | calling errand =>
      let answer : (deployment.callOf errand).Answer :=
        .error (.timedOut deployment.function 0)
      obtain ⟨said, result, exchanges, runs, -⟩ := exists_leads (deployment.after errand answer)
      exact ⟨_, _, result, .ask rfl answer (.release rfl runs), rfl⟩
  | leaving stage =>
      obtain ⟨said, result, exchanges, runs, -⟩ := exists_leads stage
      exact ⟨exchanges, _, result, .release rfl runs, rfl⟩

/-- Every run of a reconciliation that applies its plan is a conversation. -/
theorem conversation_of_runs {deployment : Deployment} {exchanges : List Exchanged}
    {last : Reconciliation} {result : Except DeployFailure DeployReport}
    (applies : deployment.options.dryRun = false)
    (runs : Task.Runs (start deployment) exchanges last) (ended : Task.step last = .ended result) :
    Conversation deployment (dialogue exchanges) result := by
  have atEnd : AheadAt last.deployment last.position [] result := by
    rw [step_eq_ended_iff.mp ended]
    exact ⟨rfl, rfl⟩
  have ahead := ahead_of_runs runs applies atEnd
  rwa [List.append_nil] at ahead

/-- Without a dry run, a reconciliation that has ended has had a conversation with that
result, and one that has not can still end.  Every conversation can be had, and every
conversation is orderly: so nothing is ever said that is not the beginning of one. -/
theorem runs_conversation (target : String) (archive : Archive) (parameters : Parameters)
    (role : String) (options : DeployOptions) (applies : options.dryRun = false) :
    let deployment : Deployment :=
      ⟨FunctionName.compute target parameters, archive, parameters, role, options⟩
    (∀ {exchanges last}, Task.Runs (start deployment) exchanges last →
      (∀ {result}, Task.step last = .ended result →
        Conversation deployment (dialogue exchanges) result) ∧
      ∃ later stop result, Task.Runs last later stop ∧ Task.step stop = .ended result ∧
        Conversation deployment (dialogue exchanges ++ dialogue later) result) ∧
    ∀ {said result}, Conversation deployment said result →
      Orderly deployment said result ∧
        ∃ exchanges last, Task.Runs (start deployment) exchanges last ∧
          dialogue exchanges = said ∧ Task.step last = .ended result := by
  intro deployment
  refine ⟨fun runs => ⟨conversation_of_runs applies runs, ?_⟩,
    fun conversation => ⟨conversation.orderly, ?_⟩⟩
  · obtain ⟨later, stop, result, laterRuns, ended⟩ := exists_end _
    have whole := conversation_of_runs applies (runs.append laterRuns) ended
    rw [dialogue_append] at whole
    exact ⟨later, stop, result, laterRuns, ended, whole⟩
  · obtain ⟨exchanges, runs, same⟩ := leads_of_conversation applies conversation
    exact ⟨exchanges, _, runs, same, rfl⟩

/-- A function is created, looked at twice, and reported. -/
theorem runs_conversation_create :
    let parameters : Parameters := ⟨"handler", 256, 10, 512⟩
    let function := FunctionName.compute "app" parameters
    let deployment : Deployment :=
      ⟨function, .ofBytes [], parameters, "role", DeployOptions.standard⟩
    ∃ exchanges last, Task.Runs (start deployment) exchanges last ∧
      dialogue exchanges =
        [⟨.lookUp function, .ok none⟩, ⟨deployment.changeCall (.inline []) .create, .ok ()⟩,
          ⟨.isStable function, .ok false⟩, ⟨.isStable function, .ok true⟩] ∧
      Task.step last = .ended (.ok ⟨function, [.create]⟩) := by
  intro parameters function deployment
  have polls : Polls deployment
      [⟨.isStable function, .ok false⟩, ⟨.isStable function, .ok true⟩] none :=
    @Polls.again _ 0 _ _ (by decide) .stable
  have rounds : Rounds deployment (.inline []) [.create] _ none := .applied () polls .done
  have direct : ¬deployment.Uploads (deployment.planFor none) :=
    fun uploads => absurd uploads.2 (by decide)
  exact ((runs_conversation "app" (.ofBytes []) parameters "role" .standard rfl).2
    (.direct direct rounds)).2

end Reconciliation

end FunctionBundler
