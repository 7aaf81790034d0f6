/-
Module: FunctionBundler.Proofs.Deploy.Routing
Purpose: How an archive reaches the platform, and under which key it is kept on the way.
Trusted boundary: none
Main exports:
  RemoteCall.code?, Deployment.IsKey, Deployment.Ships, Deployment.Routed, Deployment.LacksBucket,
  Deployment.Judged, Deployment.Conversation.routed, Reconciliation.runs_route
-/
import FunctionBundler.Proofs.Deploy.Reconcile
import FunctionBundler.Proofs.Digest.Hex

namespace FunctionBundler

/-!
How the code travels is decided once, before the first change, and the changes
come after that whatever happens.  So what a call carries is told by the size of the
archive and by what was said before the call: where a call refers to an object,
the archive was stored there in the same conversation.  A key ends in the digits of a
digest, of which there is a fixed number, so that no two archives share one.
-/

/-! ### Keys -/

/-- A key tells function and digest, whatever characters the function's name has. -/
theorem objectKey_inj {function other : FunctionName} {digest otherDigest : Digest}
    (same : objectKey function digest = objectKey other otherDigest) :
    function = other ∧ digest = otherDigest := by
  have shape (function : FunctionName) (digest : Digest) :
      (objectKey function digest).toList =
        function.text.toList ++ (['/'] ++ digest.hex.toList ++ ".zip".toList) := by
    simp [objectKey, toString]
  have texts := congrArg String.toList same
  rw [shape, shape] at texts
  -- Endings are of one length, so a separator in a name cannot move the cut.
  obtain ⟨names, endings⟩ := List.append_inj' texts (by simp [Digest.length_hex])
  have digits : digest.hex.toList = otherDigest.hex.toList :=
    (List.append_cancel_left_eq ['/'] _ _).mp (List.append_cancel_right endings)
  obtain ⟨text⟩ := function
  obtain ⟨otherText⟩ := other
  cases String.toList_inj.mp names
  exact ⟨rfl, Digest.hex_injective (String.toList_inj.mp digits)⟩

/-- The code that a call carries. -/
def RemoteCall.code? : RemoteCall → Option Payload
  | .create request => some request.code
  | .updateCode _ code => some code
  | .lookUp _ | .updateConfig _ _ | .isStable _ | .upload _ _ _ => none

namespace Deployment

/-! ### What calls carry -/

/-- A key names the function and, in 64 digits that read back, the archive's digest. -/
structure IsKey (deployment : Deployment) (key : String) : Prop where
  text : key = deployment.function.text ++ "/" ++ deployment.archive.digest.hex ++ ".zip"
  length : deployment.archive.digest.hex.toList.length = 64
  digits : ∀ digit ∈ deployment.archive.digest.hex.toList, digit ∈ "0123456789abcdef".toList
  reads : Bytes.ofHex? deployment.archive.digest.hex = some deployment.archive.digest.bytes

/-- How the code of a deployment travels: with the call, if it is small enough, and otherwise by an
object that was stored before. -/
inductive Ships (deployment : Deployment) (before : List Spoken) : Payload → Prop where
  | inline (fits : deployment.archive.bytes.length ≤ deployment.options.inlineLimit) :
      Ships deployment before (.inline deployment.archive.bytes)
  | stored {bucket key : String}
      (large : deployment.options.inlineLimit < deployment.archive.bytes.length)
      (given : deployment.options.bucket = some bucket) (isKey : deployment.IsKey key)
      (uploaded : ⟨.upload bucket key deployment.archive.bytes, .ok ()⟩ ∈ before) :
      Ships deployment before (.stored bucket key)

/-- An upload stores the archive.  It is the second call, and so the only upload: the first call
told that the plan ships code, which is too large to travel with a call. -/
structure Stores (deployment : Deployment) (before : List Spoken) (bucket key : String)
    (content : Bytes) : Prop where
  given : deployment.options.bucket = some bucket
  isKey : deployment.IsKey key
  content : content = deployment.archive.bytes
  second : ∃ remote, before = [⟨.lookUp deployment.function, .ok remote⟩] ∧
    deployment.Uploads (deployment.planFor remote)
  only : ∀ exchange ∈ before, ∀ bucket key content, exchange.1 ≠ .upload bucket key content

/-- What a call carries, given what was said before it. -/
structure Routed (deployment : Deployment) (before : List Spoken) (call : RemoteCall) : Prop where
  ships : ∀ payload, call.code? = some payload → deployment.Ships before payload
  stores : ∀ bucket key content, call = .upload bucket key content →
    deployment.Stores before bucket key content

/-- A call was answered with a failure. -/
def FailsWith (failure : DeployFailure) (exchange : Spoken) : Prop :=
  exchange.2 = .error failure

/-- An archive has to be uploaded, and no bucket is given. -/
structure LacksBucket (deployment : Deployment) (said : List Spoken) : Prop where
  missing : deployment.options.bucket = none
  uploads : ∃ remote later, said = ⟨.lookUp deployment.function, .ok remote⟩ :: later ∧
    deployment.Uploads (deployment.planFor remote)

/-- A reconciliation complains of a missing bucket of its own accord, not because a call was
answered so, exactly if one was needed; then it has done nothing but look the function up. -/
structure Judged (deployment : Deployment) (said : List Spoken)
    (result : Except DeployFailure DeployReport) : Prop where
  complains_iff : (∃ function size, result = .error (.missingBucket function size) ∧
    ∀ exchange ∈ said, ¬FailsWith (.missingBucket function size) exchange) ↔
      deployment.LacksBucket said
  unchanged : deployment.LacksBucket said → said.length = 1 ∧ changes said = [] ∧
    result = .error (.missingBucket deployment.function deployment.archive.bytes.length)

variable {deployment : Deployment}

private theorem isKey_key (deployment : Deployment) : deployment.IsKey deployment.key :=
  ⟨rfl, deployment.archive.digest.length_hex, fun _ => Bytes.mem_hexDigits_of_mem_hex,
    Bytes.ofHex?_hex _⟩

/-- A call uploads nothing, and it ships only the given code, for actions that ship some. -/
structure Conveys (code : Payload) (actions : List DeployAction) (call : RemoteCall) : Prop where
  uploadsNothing : ∀ bucket key content, call ≠ .upload bucket key content
  ships : ∀ payload, call.code? = some payload →
    payload = code ∧ actions.any DeployAction.shipsCode

section Conveying

variable {code : Payload} {actions : List DeployAction} {said polls : List Spoken}
  {outcome : Option DeployFailure}

/-- A call that conveys some of the actions still does when there are more. -/
theorem Conveys.cons {call : RemoteCall} (conveys : Conveys code actions call)
    (action : DeployAction) : Conveys code (action :: actions) call := by
  refine ⟨conveys.uploadsNothing, fun payload carried => ?_⟩
  obtain ⟨same, shipsCode⟩ := conveys.ships payload carried
  exact ⟨same, by simp [shipsCode]⟩

private theorem conveys_changeCall (action : DeployAction) (later : List DeployAction) :
    Conveys code (action :: later) (deployment.changeCall code action) := by
  cases action with
  | create | updateCode =>
      refine ⟨nofun, fun payload carried => ?_⟩
      cases carried
      exact ⟨rfl, rfl⟩
  | updateRole | updateConfig => exact ⟨nofun, nofun⟩

private theorem Polls.conveys (said : Polls deployment polls outcome) (code : Payload)
    (actions : List DeployAction) : ∀ exchange ∈ polls, Conveys code actions exchange.1 := by
  induction said with
  | stable | failed | timedOut =>
      intro exchange member
      rw [List.mem_singleton.mp member]
      exact ⟨nofun, nofun⟩
  | again _ _ ih => exact List.forall_mem_cons.mpr ⟨⟨nofun, nofun⟩, ih⟩

/-- In the rounds for actions nothing is uploaded, and no code is shipped but the one that was
decided on. -/
theorem Rounds.conveys (rounds : Rounds deployment code actions said outcome) :
    ∀ exchange ∈ said, Conveys code actions exchange.1 := by
  induction rounds with
  | done => exact List.forall_mem_nil _
  | @refused action later =>
      intro exchange member
      rw [List.mem_singleton.mp member]
      exact conveys_changeCall action later
  | unstable _ failed =>
      exact List.forall_mem_cons.mpr ⟨conveys_changeCall _ _, failed.conveys _ _⟩
  | @applied action later _ _ _ _ tookEffect _ ih =>
      refine List.forall_mem_cons.mpr ⟨conveys_changeCall action later, ?_⟩
      exact List.forall_mem_append.mpr
        ⟨tookEffect.conveys _ _, fun exchange member => (ih exchange member).cons action⟩

end Conveying

section Routing

variable {before later : List Spoken} {call : RemoteCall} {answer : call.Answer}
  {result : Except DeployFailure DeployReport}

private theorem routed_lookUp (function : FunctionName) :
    Routed deployment before (.lookUp function) :=
  ⟨nofun, nofun⟩

private theorem routed_upload {bucket : String} {remote : Option RemoteFunction}
    (uploads : deployment.Uploads (deployment.planFor remote))
    (given : deployment.options.bucket = some bucket) :
    Routed deployment [⟨.lookUp deployment.function, .ok remote⟩]
      (.upload bucket deployment.key deployment.archive.bytes) := by
  refine ⟨nofun, fun _ _ _ made => ?_⟩
  cases made
  refine ⟨given, isKey_key deployment, rfl, ⟨remote, rfl, uploads⟩, fun exchange member => ?_⟩
  rw [List.mem_singleton.mp member]
  exact nofun

private theorem routed_of_conveys {code : Payload} {actions : List DeployAction}
    (conveys : Conveys code actions call)
    (ships : actions.any DeployAction.shipsCode → Ships deployment before code) :
    Routed deployment before call := by
  refine ⟨fun payload carried => ?_, fun bucket key content made => ?_⟩
  · obtain ⟨rfl, shipsCode⟩ := conveys.ships payload carried
    exact ships shipsCode
  · exact absurd made (conveys.uploadsNothing bucket key content)

/-- A call is the first one of a dialogue, or one of the others. -/
theorem cut_cases {first : Spoken} {others : List Spoken}
    (cut : first :: others = before ++ ⟨call, answer⟩ :: later) :
    (before = [] ∧ first.1 = call) ∨
      ∃ rest, before = first :: rest ∧ others = rest ++ ⟨call, answer⟩ :: later := by
  rcases List.cons_eq_append_iff.mp cut with ⟨rfl, same⟩ | ⟨rest, rfl, same⟩
  · cases same
    exact Or.inl ⟨rfl, rfl⟩
  · exact Or.inr ⟨rest, rfl, same⟩

private theorem not_nil_cut {rest : List Spoken} : [] ≠ rest ++ ⟨call, answer⟩ :: later := by
  simp

/-- In a conversation every call carries what it should. -/
theorem Conversation.routed
    (conversation : Conversation deployment (before ++ ⟨call, answer⟩ :: later) result) :
    Routed deployment before call := by
  generalize cut : before ++ ⟨call, answer⟩ :: later = said at conversation
  replace cut := cut.symm
  -- The call is the lookup, the upload behind it, or one of the rounds behind both.
  cases conversation with
  | unknown | noBucket =>
      rcases cut_cases cut with ⟨rfl, rfl⟩ | ⟨rest, -, nothing⟩
      · exact routed_lookUp deployment.function
      · exact absurd nothing not_nil_cut
  | direct direct rounds =>
      rcases cut_cases cut with ⟨rfl, rfl⟩ | ⟨rest, rfl, rfl⟩
      · exact routed_lookUp deployment.function
      · apply routed_of_conveys (rounds.conveys ⟨call, answer⟩ (by simp))
        intro shipsCode
        exact .inline (Nat.le_of_not_lt fun large => direct ⟨shipsCode, large⟩)
  | notUploaded uploads given =>
      rcases cut_cases cut with ⟨rfl, rfl⟩ | ⟨rest, rfl, cutLater⟩
      · exact routed_lookUp deployment.function
      · rcases cut_cases cutLater with ⟨rfl, rfl⟩ | ⟨rest, -, nothing⟩
        · exact routed_upload uploads given
        · exact absurd nothing not_nil_cut
  | uploaded uploads given rounds =>
      rcases cut_cases cut with ⟨rfl, rfl⟩ | ⟨rest, rfl, cutLater⟩
      · exact routed_lookUp deployment.function
      · rcases cut_cases cutLater with ⟨rfl, rfl⟩ | ⟨rest, rfl, rfl⟩
        · exact routed_upload uploads given
        · apply routed_of_conveys (rounds.conveys ⟨call, answer⟩ (by simp))
          intro _
          exact .stored uploads.2 given (isKey_key deployment) (by simp)

end Routing

/-! ### How conversations end -/

section Judging

variable {code : Payload} {actions : List DeployAction} {said polls : List Spoken}
  {failure : DeployFailure} {result : Except DeployFailure DeployReport}

/-- Polls fail because one was answered so, or because they took too long. -/
theorem Polls.failsWith (said : Polls deployment polls (some failure)) :
    (∃ exchange ∈ polls, FailsWith failure exchange) ∨
      ∃ waited, failure = .timedOut deployment.function waited := by
  generalize failed : some failure = outcome at said
  induction said with
  | stable => cases failed
  | failed =>
      cases failed
      exact Or.inl ⟨_, List.mem_cons_self, rfl⟩
  | timedOut =>
      cases failed
      exact Or.inr ⟨_, rfl⟩
  | again _ _ ih =>
      refine (ih failed).imp_left ?_
      rintro ⟨exchange, member, fails⟩
      exact ⟨exchange, List.mem_cons_of_mem _ member, fails⟩

private theorem Rounds.failsWith (rounds : Rounds deployment code actions said (some failure)) :
    (∃ exchange ∈ said, FailsWith failure exchange) ∨
      ∃ waited, failure = .timedOut deployment.function waited := by
  generalize failed : some failure = outcome at rounds
  induction rounds with
  | done => cases failed
  | refused =>
      cases failed
      exact Or.inl ⟨_, List.mem_cons_self, rfl⟩
  | unstable _ polls =>
      cases failed
      refine polls.failsWith.imp_left ?_
      rintro ⟨exchange, member, fails⟩
      exact ⟨exchange, List.mem_cons_of_mem _ member, fails⟩
  | applied _ _ _ ih =>
      refine (ih failed).imp_left ?_
      rintro ⟨exchange, member, fails⟩
      exact ⟨exchange, List.mem_cons_of_mem _ (List.mem_append_right _ member), fails⟩

private theorem conclude_eq_error_iff {outcome : Option DeployFailure} :
    deployment.conclude actions outcome = .error failure ↔ outcome = some failure := by
  cases outcome <;> simp [conclude]

/-- Rounds do not lead to a complaint that no call was answered with. -/
theorem Rounds.not_complains {outcome : Option DeployFailure} {function : FunctionName} {size : Nat}
    (rounds : Rounds deployment code actions said outcome)
    (silent : ∀ exchange ∈ said, ¬FailsWith (.missingBucket function size) exchange) :
    deployment.conclude actions outcome ≠ .error (.missingBucket function size) := by
  intro complains
  obtain rfl := conclude_eq_error_iff.mp complains
  rcases rounds.failsWith with ⟨exchange, member, fails⟩ | ⟨waited, timedOut⟩
  · exact silent exchange member fails
  · cases timedOut

private theorem Conversation.eq_of_lacksBucket (conversation : Conversation deployment said result)
    (lacks : deployment.LacksBucket said) :
    ∃ remote, said = [⟨.lookUp deployment.function, .ok remote⟩] ∧
      result = .error (.missingBucket deployment.function deployment.archive.bytes.length) := by
  obtain ⟨missing, remote, later, begins, uploads⟩ := lacks
  cases conversation with
  | unknown => cases begins
  | direct direct =>
      cases begins
      exact absurd uploads direct
  | noBucket => exact ⟨_, rfl, rfl⟩
  | notUploaded _ given | uploaded _ given => cases missing.symm.trans given

private theorem Conversation.lacksBucket (conversation : Conversation deployment said result)
    {function : FunctionName} {size : Nat}
    (complains : result = .error (.missingBucket function size))
    (silent : ∀ exchange ∈ said, ¬FailsWith (.missingBucket function size) exchange) :
    deployment.LacksBucket said := by
  cases conversation with
  | unknown failure =>
      cases complains
      exact absurd rfl (silent _ List.mem_cons_self)
  | direct _ rounds =>
      exact absurd complains (rounds.not_complains (List.forall_mem_cons.mp silent).2)
  | noBucket uploads missing => exact ⟨missing, _, _, rfl, uploads⟩
  | notUploaded _ _ failure =>
      cases complains
      exact absurd rfl (silent _ (List.mem_cons_of_mem _ List.mem_cons_self))
  | uploaded _ _ rounds =>
      refine absurd complains (rounds.not_complains fun exchange member => ?_)
      exact silent exchange (List.mem_cons_of_mem _ (List.mem_cons_of_mem _ member))

/-- Every conversation is judged. -/
theorem Conversation.judged (conversation : Conversation deployment said result) :
    Judged deployment said result := by
  refine ⟨⟨?_, fun lacks => ?_⟩, fun lacks => ?_⟩
  · rintro ⟨function, size, complains, silent⟩
    exact conversation.lacksBucket complains silent
  · obtain ⟨remote, rfl, complains⟩ := conversation.eq_of_lacksBucket lacks
    refine ⟨_, _, complains, ?_⟩
    simp [FailsWith]
  · obtain ⟨remote, rfl, complains⟩ := conversation.eq_of_lacksBucket lacks
    exact ⟨rfl, rfl, complains⟩

end Judging

end Deployment

namespace Reconciliation

open Deployment

/-- A call is made after a dialogue, whether or not it is ever answered. -/
def Makes (first : Reconciliation) (before : List Spoken) (call : RemoteCall) : Prop :=
  ∃ exchanges middle resume, Task.Runs first exchanges middle ∧ dialogue exchanges = before ∧
    Task.step middle = .ask (.call call) resume

private theorem makes_of_runs {first : Reconciliation} {deployment : Deployment} {errand : Errand}
    {exchanges : List Exchanged}
    (runs : Task.Runs first exchanges ⟨deployment, .outside (.before errand)⟩) :
    Makes first (dialogue exchanges) (deployment.callOf errand) :=
  ⟨exchanges ++ [], ⟨deployment, .calling errand⟩, _, runs.append (.acquire rfl (.here _)),
    congrArg dialogue (List.append_nil exchanges), rfl⟩

/-- A call that is made, with any answer to it, is a part of a conversation. -/
theorem conversation_of_makes {deployment : Deployment} {before : List Spoken} {call : RemoteCall}
    (applies : deployment.options.dryRun = false) (makes : Makes (start deployment) before call)
    (answer : call.Answer) :
    ∃ later result, Conversation deployment (before ++ ⟨call, answer⟩ :: later) result := by
  obtain ⟨exchanges, middle, resume, runs, rfl, asks⟩ := makes
  obtain ⟨more, stop, result, goesOn, ended⟩ := exists_end (resume answer)
  refine ⟨dialogue more, result, ?_⟩
  have whole := conversation_of_runs applies (runs.append (.ask asks answer goesOn)) ended
  rwa [dialogue_append] at whole

/-- Whatever is answered, calls that ship code carry the archive itself where it is small enough,
and otherwise the bucket and the key under which it was stored before; it is stored once at
most, and only if the plan ships code.  Where it cannot be stored for want of a bucket, this is
the result and nothing has changed.  Keys tell functions and digests apart. -/
theorem runs_route (deployment : Deployment) (applies : deployment.options.dryRun = false) :
    (∀ before call, Makes (start deployment) before call → Routed deployment before call) ∧
    (∀ exchanges last result, Task.Runs (start deployment) exchanges last →
      Task.step last = .ended result → Judged deployment (dialogue exchanges) result) ∧
    ∀ function digest other otherDigest, objectKey function digest = objectKey other otherDigest →
      function = other ∧ digest = otherDigest := by
  refine ⟨fun before call makes => ?_, fun exchanges last result runs ended => ?_,
    fun _ _ _ _ => objectKey_inj⟩
  · obtain ⟨later, result, conversation⟩ :=
      conversation_of_makes applies makes (.error (.timedOut deployment.function 0))
    exact conversation.routed
  · exact (conversation_of_runs applies runs ended).judged

/-- A function whose name has a separator is created from an archive in a bucket. -/
theorem runs_route_stored :
    let deployment : Deployment :=
      ⟨⟨"app/handler"⟩, .ofBytes [1], ⟨"handler", 256, 10, 512⟩, "role",
        { DeployOptions.standard with bucket := some "bucket", inlineLimit := 0 }⟩
    let before : List Spoken :=
      [⟨.lookUp deployment.function, .ok none⟩, ⟨.upload "bucket" deployment.key [1], .ok ()⟩]
    deployment.options.dryRun = false ∧
      Makes (start deployment) before
        (deployment.changeCall (.stored "bucket" deployment.key) .create) ∧
      Ships deployment before (.stored "bucket" deployment.key) := by
  intro deployment before
  let progress : Progress := ⟨[.create], .stored "bucket" deployment.key, []⟩
  have runs : Task.Runs (start deployment) _
      ⟨deployment, .outside (.before (.change progress .create))⟩ :=
    runs_errand .lookUp (.ok none) rfl
      (runs_errand (.upload [.create] "bucket") (.ok ()) rfl (.here _))
  have makes : Makes (start deployment) before
      (deployment.changeCall (.stored "bucket" deployment.key) .create) :=
    makes_of_runs runs
  exact ⟨rfl, makes, ((runs_route deployment rfl).1 before _ makes).ships _ rfl⟩

end Reconciliation

end FunctionBundler
