/-
Module: FunctionBundler.Proofs.Deploy.Conversation
Purpose: What a reconciliation and the platform can say to each other, and how it ends.
Trusted boundary: none
Main exports:
  Deployment.Polls, Deployment.Rounds, Deployment.Conversation, Deployment.Orderly,
  Deployment.Conversation.orderly
-/
import FunctionBundler.Proofs.Deploy.Plan
import FunctionBundler.Proofs.Task.Runs

namespace FunctionBundler.Deployment

/-!
A conversation is described by itself, without the steps that lead to it: the
function is looked up, perhaps an archive is uploaded, and then there is a round
for each action of the plan, which is a change and the polls after it.  The
relations say both what is said and how it ends; a conversation can end early,
with a failure, in each of its parts.
-/

variable {deployment : Deployment}

/-- Whether a plan ships an archive that is too large to travel with a call. -/
def Uploads (deployment : Deployment) (actions : List DeployAction) : Prop :=
  actions.any DeployAction.shipsCode ∧ deployment.options.inlineLimit < deployment.archive.size

/-- The result after a plan, given the failure that cut it short, if any. -/
def conclude (deployment : Deployment) (actions : List DeployAction) :
    Option DeployFailure → Except DeployFailure DeployReport
  | none => .ok (deployment.report actions)
  | some failure => .error failure

/-- The polls after a change, and the failure that they end with, if any.  A poll that finds the
function still changing is followed by another one unless it took too long. -/
inductive Polls (deployment : Deployment) : List Spoken → Option DeployFailure → Prop where
  | stable : Polls deployment [⟨.isStable deployment.function, .ok true⟩] none
  | failed (failure : DeployFailure) :
      Polls deployment [⟨.isStable deployment.function, .error failure⟩] (some failure)
  | timedOut {waited : Nat} (long : deployment.options.maxWait ≤ waited) :
      Polls deployment [⟨.isStable deployment.function, .ok false⟩]
        (some (.timedOut deployment.function waited))
  | again {waited : Nat} {later : List Spoken} {outcome : Option DeployFailure}
      (short : waited < deployment.options.maxWait) (polls : Polls deployment later outcome) :
      Polls deployment (⟨.isStable deployment.function, .ok false⟩ :: later) outcome

/-- The rounds for actions, one after the other, and the failure that they end with, if any. -/
inductive Rounds (deployment : Deployment) (code : Payload) :
    List DeployAction → List Spoken → Option DeployFailure → Prop where
  | done : Rounds deployment code [] [] none
  | refused {action : DeployAction} {later : List DeployAction} (failure : DeployFailure) :
      Rounds deployment code (action :: later)
        [⟨deployment.changeCall code action, .error failure⟩] (some failure)
  | unstable {action : DeployAction} {later : List DeployAction} {polls : List Spoken}
      {failure : DeployFailure} (result : (deployment.changeCall code action).Result)
      (failed : Polls deployment polls (some failure)) :
      Rounds deployment code (action :: later)
        (⟨deployment.changeCall code action, .ok result⟩ :: polls) (some failure)
  | applied {action : DeployAction} {later : List DeployAction} {polls said : List Spoken}
      {outcome : Option DeployFailure} (result : (deployment.changeCall code action).Result)
      (tookEffect : Polls deployment polls none)
      (rounds : Rounds deployment code later said outcome) :
      Rounds deployment code (action :: later)
        (⟨deployment.changeCall code action, .ok result⟩ :: (polls ++ said)) outcome

/-- A whole conversation and its result. -/
inductive Conversation (deployment : Deployment) :
    List Spoken → Except DeployFailure DeployReport → Prop where
  | unknown (failure : DeployFailure) :
      Conversation deployment [⟨.lookUp deployment.function, .error failure⟩] (.error failure)
  | direct {remote : Option RemoteFunction} {said : List Spoken} {outcome : Option DeployFailure}
      (direct : ¬deployment.Uploads (deployment.planFor remote))
      (rounds : Rounds deployment (.inline deployment.archive.bytes) (deployment.planFor remote)
        said outcome) :
      Conversation deployment (⟨.lookUp deployment.function, .ok remote⟩ :: said)
        (deployment.conclude (deployment.planFor remote) outcome)
  | noBucket {remote : Option RemoteFunction}
      (uploads : deployment.Uploads (deployment.planFor remote))
      (missing : deployment.options.bucket = none) :
      Conversation deployment [⟨.lookUp deployment.function, .ok remote⟩]
        (.error (.missingBucket deployment.function deployment.archive.size))
  | notUploaded {remote : Option RemoteFunction} {bucket : String}
      (uploads : deployment.Uploads (deployment.planFor remote))
      (given : deployment.options.bucket = some bucket) (failure : DeployFailure) :
      Conversation deployment
        [⟨.lookUp deployment.function, .ok remote⟩,
          ⟨.upload bucket deployment.key deployment.archive.bytes, .error failure⟩]
        (.error failure)
  | uploaded {remote : Option RemoteFunction} {bucket : String} {said : List Spoken}
      {outcome : Option DeployFailure}
      (uploads : deployment.Uploads (deployment.planFor remote))
      (given : deployment.options.bucket = some bucket)
      (rounds : Rounds deployment (.stored bucket deployment.key) (deployment.planFor remote)
        said outcome) :
      Conversation deployment
        (⟨.lookUp deployment.function, .ok remote⟩ ::
          ⟨.upload bucket deployment.key deployment.archive.bytes, .ok ()⟩ :: said)
        (deployment.conclude (deployment.planFor remote) outcome)

/-! ### What is said -/

/-- The changes among calls, in their order. -/
def changes (said : List Spoken) : List RemoteCall :=
  (said.map fun exchange => exchange.1).filter RemoteCall.isMutation

private theorem changes_append (before after : List Spoken) :
    changes (before ++ after) = changes before ++ changes after := by
  rw [changes, List.map_append, List.filter_append]
  rfl

/-- A call names the function of a deployment, or uploads its archive under the function's key. -/
def Names (deployment : Deployment) (call : RemoteCall) : Prop :=
  call.function? = some deployment.function ∨
    ∃ bucket, call = .upload bucket deployment.key deployment.archive.bytes

/-- Only the last call fails, if any, and with a failure that `ends` allows. -/
def FailsLast (ends : DeployFailure → Prop) : List Spoken → Prop
  | [] => True
  | ⟨_, .ok _⟩ :: later => FailsLast ends later
  | ⟨_, .error failure⟩ :: later => later = [] ∧ ends failure

private theorem isMutation_changeCall (code : Payload) (action : DeployAction) :
    (deployment.changeCall code action).isMutation = true := by
  cases action <;> rfl

/-- A change is made to the function that is deployed. -/
theorem function_changeCall (code : Payload) (action : DeployAction) :
    (deployment.changeCall code action).function? = some deployment.function := by
  cases action <;> rfl

private theorem changes_change (code : Payload) (action : DeployAction)
    (answer : (deployment.changeCall code action).Answer) (later : List Spoken) :
    changes (⟨deployment.changeCall code action, answer⟩ :: later) =
      deployment.changeCall code action :: changes later := by
  rw [changes, List.map_cons, List.filter_cons_of_pos (isMutation_changeCall code action)]
  rfl

section Polls

variable {polls : List Spoken} {outcome : Option DeployFailure}

private theorem Polls.ne_nil (said : Polls deployment polls outcome) : polls ≠ [] := by
  cases said <;> exact List.cons_ne_nil _ _

private theorem Polls.changes_eq_nil (said : Polls deployment polls outcome) :
    changes polls = [] := by
  induction said with
  | stable | failed | timedOut => rfl
  | again _ _ ih => exact ih

/-- Polling asks after the function that is deployed. -/
theorem Polls.names (said : Polls deployment polls outcome) :
    ∀ exchange ∈ polls, deployment.Names exchange.1 := by
  induction said with
  | stable | failed | timedOut =>
      intro exchange member
      rw [List.mem_singleton.mp member]
      exact Or.inl rfl
  | again _ _ ih => exact List.forall_mem_cons.mpr ⟨Or.inl rfl, ih⟩

/-- If polling fails, it fails in its last call. -/
theorem Polls.failsLast (said : Polls deployment polls outcome) :
    FailsLast (fun failure => outcome = some failure) polls := by
  induction said with
  | stable | timedOut => exact trivial
  | failed => exact ⟨rfl, rfl⟩
  | again _ _ ih => exact ih

/-- Polls that end well do not fail. -/
theorem Polls.failsLast_append {ends : DeployFailure → Prop} {later : List Spoken}
    (said : Polls deployment polls none) (after : FailsLast ends later) :
    FailsLast ends (polls ++ later) := by
  generalize good : (none : Option DeployFailure) = outcome at said
  induction said with
  | stable => exact after
  | failed | timedOut => cases good
  | again _ _ ih => exact ih good

/-- Polls end well exactly if the last one finds the function stable. -/
theorem Polls.getLast_iff (said : Polls deployment polls outcome) :
    polls.getLast? = some ⟨.isStable deployment.function, .ok true⟩ ↔ outcome = none := by
  induction said with
  | stable => simp
  | failed | timedOut => simp
  | again _ polls ih =>
      rw [List.getLast?_cons_of_ne_nil polls.ne_nil]
      exact ih

end Polls

section Rounds

variable {code : Payload} {actions : List DeployAction} {said : List Spoken}
  {outcome : Option DeployFailure}

private theorem Rounds.ne_nil (rounds : Rounds deployment code actions said outcome)
    (nonempty : actions ≠ []) : said ≠ [] := by
  cases rounds with
  | done => exact absurd rfl nonempty
  | refused | unstable | applied => exact List.cons_ne_nil _ _

/-- All rounds are about the function that is deployed. -/
theorem Rounds.names (rounds : Rounds deployment code actions said outcome) :
    ∀ exchange ∈ said, deployment.Names exchange.1 := by
  induction rounds with
  | done => simp
  | refused =>
      intro exchange member
      rw [List.mem_singleton.mp member]
      exact Or.inl (function_changeCall _ _)
  | unstable _ failed =>
      exact List.forall_mem_cons.mpr ⟨Or.inl (function_changeCall _ _), failed.names⟩
  | applied _ tookEffect _ ih =>
      refine List.forall_mem_cons.mpr ⟨Or.inl (function_changeCall _ _), ?_⟩
      exact List.forall_mem_append.mpr ⟨tookEffect.names, ih⟩

/-- If a round fails, it fails in the last call of all. -/
theorem Rounds.failsLast (rounds : Rounds deployment code actions said outcome) :
    FailsLast (fun failure => outcome = some failure) said := by
  induction rounds with
  | done => exact trivial
  | refused => exact ⟨rfl, rfl⟩
  | unstable _ failed => exact failed.failsLast
  | applied _ tookEffect _ ih => exact tookEffect.failsLast_append ih

/-- The changes are made in the order of the actions, and all of them unless a round fails. -/
theorem Rounds.changes_prefix (rounds : Rounds deployment code actions said outcome) :
    changes said <+: actions.map (deployment.changeCall code) ∧
      (outcome = none → changes said = actions.map (deployment.changeCall code)) := by
  induction rounds with
  | done => exact ⟨List.prefix_refl [], fun _ => rfl⟩
  | refused =>
      rw [changes_change, List.map_cons]
      exact ⟨List.prefix_cons_inj _ |>.mpr List.nil_prefix, nofun⟩
  | unstable _ failed =>
      rw [changes_change, failed.changes_eq_nil, List.map_cons]
      exact ⟨List.prefix_cons_inj _ |>.mpr List.nil_prefix, nofun⟩
  | applied _ tookEffect _ ih =>
      rw [changes_change, changes_append, tookEffect.changes_eq_nil, List.nil_append,
        List.map_cons]
      exact ⟨(List.prefix_cons_inj _).mpr ih.1, fun good => by rw [ih.2 good]⟩

/-- Rounds end well exactly if the last call of the last round finds the function stable. -/
theorem Rounds.getLast_iff (rounds : Rounds deployment code actions said outcome)
    (nonempty : actions ≠ []) :
    said.getLast? = some ⟨.isStable deployment.function, .ok true⟩ ↔ outcome = none := by
  induction rounds with
  | done => exact absurd rfl nonempty
  | @refused action _ failure => cases action <;> simp [changeCall]
  | unstable _ failed =>
      rw [List.getLast?_cons_of_ne_nil failed.ne_nil]
      exact failed.getLast_iff
  | @applied _ later polls said outcome _ tookEffect rounds ih =>
      rw [List.getLast?_cons_of_ne_nil (by simp [tookEffect.ne_nil])]
      cases rounds with
      | done => simpa using tookEffect.getLast_iff
      | refused | unstable | applied => simpa using ih (by simp)

/-- What the rounds for a plan lead to is the report of it exactly if all changes were
made and the last call found the function stable. -/
theorem Rounds.conclude_eq_ok_iff (rounds : Rounds deployment code actions said outcome)
    (report : DeployReport) :
    deployment.conclude actions outcome = .ok report ↔
      report = deployment.report actions ∧
        changes said = actions.map (deployment.changeCall code) ∧
        (actions = [] ∨ said.getLast? = some ⟨.isStable deployment.function, .ok true⟩) := by
  constructor
  · intro ended
    cases outcome with
    | some failure => cases ended
    | none =>
        refine ⟨(Except.ok.inj ended).symm, rounds.changes_prefix.2 rfl, ?_⟩
        by_cases nonempty : actions = []
        · exact Or.inl nonempty
        · exact Or.inr ((rounds.getLast_iff nonempty).mpr rfl)
  · intro complete
    rcases complete with ⟨rfl, -, last⟩
    have good : outcome = none := by
      by_cases nonempty : actions = []
      · subst nonempty
        cases rounds
        rfl
      · exact (rounds.getLast_iff nonempty).mp (last.resolve_left nonempty)
    rw [good, conclude]

end Rounds

/-- What can be seen of a conversation without looking at its parts: every call is about
the function, only the last one fails, and then with the failure that is the result; the
changes are those of an initial part of the plan, and the result is the report of the
plan exactly if all of them were made and the last call found the function stable. -/
structure Orderly (deployment : Deployment) (said : List Spoken)
    (result : Except DeployFailure DeployReport) : Prop where
  names : ∀ exchange ∈ said, deployment.Names exchange.1
  failsLast : FailsLast (fun failure => result = .error failure) said
  planned : ∀ {remote later}, said = ⟨.lookUp deployment.function, .ok remote⟩ :: later →
    ∃ code, changes later <+: (deployment.planFor remote).map (deployment.changeCall code) ∧
      ∀ report, result = .ok report ↔
        report = deployment.report (deployment.planFor remote) ∧
          changes later = (deployment.planFor remote).map (deployment.changeCall code) ∧
          (deployment.planFor remote = [] ∨
            later.getLast? = some ⟨.isStable deployment.function, .ok true⟩)

/-- A plan that uploads has something to do. -/
theorem ne_nil_of_uploads {actions : List DeployAction}
    (uploads : deployment.Uploads actions) : actions ≠ [] := by
  intro empty
  subst empty
  cases uploads.1

private theorem failsLast_conclude {said : List Spoken} {actions : List DeployAction}
    {outcome : Option DeployFailure}
    (failsLast : FailsLast (fun failure => outcome = some failure) said) :
    FailsLast (fun failure => deployment.conclude actions outcome = .error failure) said := by
  cases outcome <;> simpa [conclude] using failsLast

/-- Every conversation goes in order. -/
theorem Conversation.orderly {said : List Spoken} {result : Except DeployFailure DeployReport}
    (conversation : Conversation deployment said result) : Orderly deployment said result := by
  cases conversation with
  | unknown failure =>
      refine ⟨by simp [Names, RemoteCall.function?], ⟨rfl, rfl⟩, ?_⟩
      intro remote later same
      cases same
  | direct direct rounds =>
      refine ⟨List.forall_mem_cons.mpr ⟨Or.inl rfl, rounds.names⟩,
        failsLast_conclude rounds.failsLast, ?_⟩
      intro remote later same
      cases same
      exact ⟨_, rounds.changes_prefix.1, rounds.conclude_eq_ok_iff⟩
  | noBucket uploads missing =>
      refine ⟨by simp [Names, RemoteCall.function?], trivial, ?_⟩
      intro remote later same
      cases same
      refine ⟨.inline [], List.nil_prefix, fun report => ⟨nofun, ?_⟩⟩
      intro complete
      rcases complete with ⟨-, -, empty | last⟩
      · exact absurd empty (ne_nil_of_uploads uploads)
      · cases last
  | notUploaded uploads given failure =>
      refine ⟨by simp [Names, RemoteCall.function?], ⟨rfl, rfl⟩, ?_⟩
      intro remote later same
      cases same
      refine ⟨.inline [], List.nil_prefix, fun report => ⟨nofun, ?_⟩⟩
      intro complete
      rcases complete with ⟨-, -, empty | last⟩
      · exact absurd empty (ne_nil_of_uploads uploads)
      · simp at last
  | uploaded uploads given rounds =>
      refine ⟨?_, failsLast_conclude rounds.failsLast, ?_⟩
      · exact List.forall_mem_cons.mpr ⟨Or.inl rfl,
          List.forall_mem_cons.mpr ⟨Or.inr ⟨_, rfl⟩, rounds.names⟩⟩
      · intro remote later same
        cases same
        refine ⟨_, rounds.changes_prefix.1, fun report => ?_⟩
        have nonempty := rounds.ne_nil (ne_nil_of_uploads uploads)
        rw [List.getLast?_cons_of_ne_nil nonempty]
        exact rounds.conclude_eq_ok_iff report

end FunctionBundler.Deployment
