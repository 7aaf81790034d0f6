/-
Module: FunctionBundler.Proofs.Deploy.InFlight
Purpose: A reconciliation changes its function only when its last change has taken effect.
Trusted boundary: none
Main exports:
  Mutates, foundStable, Calm, Position.Free, Reconciliation.heeds_of_runs,
  Reconciliation.change_of_asks, Reconciliation.calm_of_asks
-/
import FunctionBundler.Proofs.Entry.Account
import FunctionBundler.Proofs.Deploy.Conversation

namespace FunctionBundler

/-!
A change is in flight from the call that makes it until a poll finds the function
stable.  A reconciliation stands where it is free to make a change only after its look
up, after an upload, or after such a poll; from a change on it can only poll, wait and
end.  So whenever it makes a change, the function was found stable since the one before.
-/

/-- A function is changed in an exchange. -/
def Mutates (exchange : Exchanged) : Prop :=
  ∃ call, exchange.1 = .call call ∧ call.isMutation = true

/-- A poll that finds a function stable. -/
def foundStable (function : FunctionName) : Exchanged :=
  ⟨.call (.isStable function), .ok true⟩

/-- After each change among some exchanges the function was found stable. -/
def Calm (function : FunctionName) (said : List Exchanged) : Prop :=
  ∀ before change after, said = before ++ change :: after → Mutates change →
    foundStable function ∈ after

section Calm

variable {function : FunctionName} {said : List Exchanged}

private theorem calm_nil (function : FunctionName) : Calm function [] :=
  fun before change after cut => by simp at cut

/-- The cut at a change either is the end, or was there before. -/
theorem cut_concat {exchange change : Exchanged} {before after : List Exchanged}
    (cut : said ++ [exchange] = before ++ change :: after) :
    (after = [] ∧ change = exchange) ∨
      ∃ earlier, after = earlier ++ [exchange] ∧ said = before ++ change :: earlier := by
  rcases List.eq_nil_or_concat after with rfl | ⟨earlier, last, rfl⟩
  · obtain ⟨-, same⟩ := List.append_inj' cut rfl
    cases same
    exact Or.inl ⟨rfl, rfl⟩
  · rw [List.concat_eq_append] at cut ⊢
    rw [← List.cons_append, ← List.append_assoc] at cut
    obtain ⟨rest, same⟩ := List.append_inj' cut rfl
    cases same
    exact Or.inr ⟨earlier, rfl, rest⟩

/-- What changes nothing leaves a function calm. -/
theorem Calm.concat {exchange : Exchanged} (calm : Calm function said)
    (quiet : ¬Mutates exchange) : Calm function (said ++ [exchange]) := by
  intro before change after cut mutates
  rcases cut_concat cut with ⟨-, rfl⟩ | ⟨earlier, rfl, rest⟩
  · exact absurd mutates quiet
  · exact List.mem_append_left _ (calm before change earlier rest mutates)

private theorem not_mutates_foundStable (function : FunctionName) :
    ¬Mutates (foundStable function) := by
  rintro ⟨call, same, isMutation⟩
  cases same
  cases isMutation

private theorem calm_concat_foundStable (function : FunctionName) (said : List Exchanged) :
    Calm function (said ++ [foundStable function]) := by
  intro before change after cut mutates
  rcases cut_concat cut with ⟨-, rfl⟩ | ⟨earlier, rfl, -⟩
  · exact absurd mutates (not_mutates_foundStable function)
  · exact List.mem_append_right _ List.mem_cons_self

/-- What changes nothing can come before. -/
theorem Calm.append_left {earlier : List Exchanged} (calm : Calm function said)
    (quiet : ∀ exchange ∈ earlier, ¬Mutates exchange) : Calm function (earlier ++ said) := by
  intro before change after cut mutates
  rcases List.append_eq_append_iff.mp cut with ⟨middle, rfl, rest⟩ | ⟨middle, rfl, rest⟩
  · exact calm middle change after rest mutates
  · cases middle with
    | nil => exact calm [] change after rest.symm mutates
    | cons first later =>
        cases rest
        exact absurd mutates (quiet _ (List.mem_append_right _ List.mem_cons_self))

end Calm

/-! ### Where a change can be made -/

/-- A stage from which a change can come without a poll before it. -/
def Stage.Free : Stage → Prop
  | .before .lookUp | .before (.upload _ _) | .before (.change _ _) => True
  | .before (.poll _ _) | .timing _ | .checking _ _ | .pausing _ _ | .ended _ => False

/-- A position from which a change can come without a poll before it. -/
def Position.Free : Position → Prop
  | .outside stage | .leaving stage => stage.Free
  | .calling errand => (Stage.before errand).Free

namespace Reconciliation

variable {deployment : Deployment} {said : List Exchanged}

/-- Where a reconciliation is free to make a change, none is in flight. -/
def Heeds (said : List Exchanged) (reconciliation : Reconciliation) : Prop :=
  reconciliation.position.Free → Calm reconciliation.deployment.function said

/-- What an errand's call leads to is no freer than what was said. -/
theorem heeds_after {errand : Errand} (answer : (deployment.callOf errand).Answer)
    (heeds : Heeds said ⟨deployment, .calling errand⟩) :
    Heeds (said ++ [⟨.call (deployment.callOf errand), answer⟩])
      ⟨deployment, .leaving (deployment.after errand answer)⟩ := by
  have quiet {call : RemoteCall} (answer : call.Answer) (reads : call.isMutation = false) :
      ¬Mutates ⟨.call call, answer⟩ := by
    rintro ⟨other, same, isMutation⟩
    cases same
    cases reads.symm.trans isMutation
  cases errand with
  | lookUp => exact fun _ => (heeds trivial).concat (quiet answer rfl)
  | upload => exact fun _ => (heeds trivial).concat (quiet answer rfl)
  | change =>
      intro free
      cases answer <;> cases free
  | poll progress since =>
      match answer with
      | .error failure => exact fun free => nomatch free
      | .ok false => exact fun free => nomatch free
      | .ok true => exact fun _ => calm_concat_foundStable deployment.function said

/-- Every step of a reconciliation keeps to it. -/
theorem heeds_of_runs {first last : Reconciliation} {later : List Exchanged}
    (runs : Task.Runs first later last) (heeds : Heeds said first) :
    Heeds (said ++ later) last := by
  induction runs generalizing said with
  | here => rwa [List.append_nil]
  | @ask state last request resume rest asks answer _ ih =>
      rw [List.append_cons]
      apply ih
      obtain ⟨deployment, position⟩ := state
      cases position with
      | calling errand =>
          cases asks
          exact heeds_after answer heeds
      | leaving stage => cases asks
      | outside stage =>
          cases stage with
          | before | ended => cases asks
          | timing | pausing =>
              cases asks
              exact fun free => nomatch free
          | checking progress since =>
              cases asks
              intro free
              change (deployment.check progress since answer).Free at free
              rw [Deployment.check] at free
              split at free <;> cases free
  | @acquire state next last rest acquires _ ih =>
      apply ih
      obtain ⟨deployment, position⟩ := state
      cases position with
      | calling | leaving => cases acquires
      | outside stage =>
          cases stage with
          | before errand =>
              cases acquires
              exact heeds
          | timing | checking | pausing | ended => cases acquires
  | @release state next last rest releases _ ih =>
      apply ih
      obtain ⟨deployment, position⟩ := state
      cases position with
      | calling => cases releases
      | leaving stage =>
          cases releases
          exact heeds
      | outside stage => cases stage <;> cases releases

/-- A reconciliation changes its own function, and stands free when it does. -/
theorem change_of_asks {reconciliation : Reconciliation} {call : RemoteCall}
    {resume : call.Answer → Reconciliation}
    (asks : Task.step reconciliation = .ask (.call call) resume)
    (changes : call.isMutation = true) :
    reconciliation.position.Free ∧ call.function? = some reconciliation.deployment.function := by
  obtain ⟨deployment, position⟩ := reconciliation
  cases position with
  | calling errand =>
      cases asks
      cases errand with
      | change progress action =>
          exact ⟨trivial, Deployment.function_changeCall progress.code action⟩
      | lookUp | upload | poll => cases changes
  | leaving => cases asks
  | outside stage => cases stage <;> cases asks

/-- Whenever a reconciliation makes a change, its function was found stable since the last one. -/
theorem calm_of_asks {reconciliation : Reconciliation} {call : RemoteCall}
    {resume : call.Answer → Reconciliation}
    (runs : Task.Runs (start deployment) said reconciliation)
    (asks : Task.step reconciliation = .ask (.call call) resume)
    (changes : call.isMutation = true) :
    call.function? = some deployment.function ∧ Calm deployment.function said := by
  have initially : Heeds [] (start deployment) := fun _ => calm_nil deployment.function
  obtain ⟨free, names⟩ := change_of_asks asks changes
  have heeds := heeds_of_runs runs initially free
  rw [deployment_of_runs runs] at names heeds
  exact ⟨names, heeds⟩

end Reconciliation

end FunctionBundler
