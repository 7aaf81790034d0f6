/-
Module: FunctionBundler.Proofs.Task.Runs
Purpose: Runs of a task one after the other, and what they say to the platform.
Trusted boundary: none
Main exports:
  Task.Runs.append, Task.Runs.of_ended, Task.Runs.invariant, Spoken, dialogue
-/
import FunctionBundler.Task

namespace FunctionBundler

/-!
A run from a state whose step is known has not begun yet, or goes on as the step
says.  Of its exchanges only some concern the platform and the object store: the
calls, with their answers.  They are the dialogue of the run.
-/

namespace Task.Runs

variable {σ ρ : Type} [Task σ ρ] {first middle last : σ} {before after : List Exchanged}

/-- Runs can be continued. -/
theorem append (firstRun : Runs first before middle) (secondRun : Runs middle after last) :
    Runs first (before ++ after) last := by
  induction firstRun with
  | here state => exact secondRun
  | ask asks answer _ ih => exact .ask asks answer (ih secondRun)
  | acquire acquires _ ih => exact .acquire acquires (ih secondRun)
  | release releases _ ih => exact .release releases (ih secondRun)

/-- A task that has ended stays as it is. -/
theorem of_ended {result : ρ} {exchanges : List Exchanged} (ended : Task.step first = .ended result)
    (runs : Runs first exchanges last) : exchanges = [] ∧ last = first := by
  cases runs with
  | here => exact ⟨rfl, rfl⟩
  | ask asks => cases ended.symm.trans asks
  | acquire acquires => cases ended.symm.trans acquires
  | release releases => cases ended.symm.trans releases

/-- A task that acquires goes on with the permit. -/
theorem of_acquire {next : σ} {exchanges : List Exchanged}
    (acquires : Task.step first = .acquire next) (runs : Runs first exchanges last) :
    (exchanges = [] ∧ last = first) ∨ Runs next exchanges last := by
  cases runs with
  | here => exact Or.inl ⟨rfl, rfl⟩
  | ask asks => cases acquires.symm.trans asks
  | acquire acquired runs =>
      cases acquires.symm.trans acquired
      exact Or.inr runs
  | release releases => cases acquires.symm.trans releases

/-- A task that releases goes on without the permit. -/
theorem of_release {next : σ} {exchanges : List Exchanged}
    (releases : Task.step first = .release next) (runs : Runs first exchanges last) :
    (exchanges = [] ∧ last = first) ∨ Runs next exchanges last := by
  cases runs with
  | here => exact Or.inl ⟨rfl, rfl⟩
  | ask asks => cases releases.symm.trans asks
  | acquire acquires => cases releases.symm.trans acquires
  | release released runs =>
      cases releases.symm.trans released
      exact Or.inr runs

/-- A task that asks goes on as it is answered. -/
theorem of_ask {request : Request} {resume : request.Answer → σ} {exchanges : List Exchanged}
    (asks : Task.step first = .ask request resume) (runs : Runs first exchanges last) :
    (exchanges = [] ∧ last = first) ∨
      ∃ answer rest, exchanges = ⟨request, answer⟩ :: rest ∧ Runs (resume answer) rest last := by
  cases runs with
  | here => exact Or.inl ⟨rfl, rfl⟩
  | ask asked answer runs =>
      cases asks.symm.trans asked
      exact Or.inr ⟨answer, _, rfl, runs⟩
  | acquire acquires => cases asks.symm.trans acquires
  | release releases => cases asks.symm.trans releases

end Task.Runs

/-- All states that a step can lead to have a property. -/
def Step.All {σ ρ : Type} (holds : σ → Prop) : Step σ ρ → Prop
  | .ask _ resume => ∀ answer, holds (resume answer)
  | .acquire next | .release next => holds next
  | .ended _ => True

/-- What every step keeps, every run keeps. -/
theorem Task.Runs.invariant {σ ρ : Type} [Task σ ρ] {first last : σ} {said : List Exchanged}
    (runs : Task.Runs first said last) (holds : σ → Prop)
    (keeps : ∀ state, holds state → (Task.step state).All holds) (initially : holds first) :
    holds last := by
  induction runs with
  | here => exact initially
  | @ask state _ _ _ _ asks answer _ ih =>
      have kept := keeps state initially
      rw [asks] at kept
      exact ih (kept answer)
  | @acquire state _ _ _ acquires _ ih =>
      have kept := keeps state initially
      rw [acquires] at kept
      exact ih kept
  | @release state _ _ _ releases _ ih =>
      have kept := keeps state initially
      rw [releases] at kept
      exact ih kept

/-- A remote call together with the answer to it. -/
abbrev Spoken := Program.Exchange RemoteCall RemoteCall.Answer

/-- The call of an exchange, if it is one. -/
def spoken? : Exchanged → Option Spoken
  | ⟨.call call, answer⟩ => some ⟨call, answer⟩
  | _ => none

/-- The calls among exchanges, with their answers. -/
def dialogue (exchanges : List Exchanged) : List Spoken :=
  exchanges.filterMap spoken?

/-- The calls of two parts are those of the first and then those of the second. -/
theorem dialogue_append (before after : List Exchanged) :
    dialogue (before ++ after) = dialogue before ++ dialogue after :=
  List.filterMap_append

end FunctionBundler
