/-
Module: FunctionBundler.Proofs.Deploy.Stability
Purpose: How long a reconciliation waits for a change to take effect, and what it makes of that.
Trusted boundary: none
Main exports:
  Moment, Moment.Passes, Deployment.Waits, Deployment.Verdict, Task.Runs.comparable,
  Deployment.waits_of_verdict, Deployment.waits_until_stable
-/
import Mathlib.Data.Nat.Find
import Mathlib.Order.Bounds.Basic
import FunctionBundler.Proofs.Deploy.Reconcile

namespace FunctionBundler

/-!
Where only pauses take time, the polls of a wait are made at fixed times, one poll
interval apart, and the answers to them decide how it ends.  The clock is looked at
after a poll only, and a pause is made only while there is time left: so the last
poll is the first one that is made when the longest wait is over.
-/

/-! ### Time that passes in pauses -/

/-- A moment of a wait: the time, and how many polls have been made. -/
structure Moment where
  now : Nat
  polls : Nat

namespace Moment

section

variable {function : FunctionName} {polled : Nat → Except DeployFailure Bool}

/-- What is answered at a moment, and the moment after that: the clock tells the time, which passes
in pauses only, and the polls are answered in turn. -/
inductive Answers (function : FunctionName) (polled : Nat → Except DeployFailure Bool) :
    Moment → Exchanged → Moment → Prop where
  | clock (moment : Moment) : Answers function polled moment ⟨.clock, moment.now⟩ moment
  | sleep (moment : Moment) (duration : Nat) :
      Answers function polled moment ⟨.sleep duration, ()⟩
        ⟨moment.now + duration, moment.polls⟩
  | poll (moment : Moment) :
      Answers function polled moment ⟨.call (.isStable function), polled moment.polls⟩
        ⟨moment.now, moment.polls + 1⟩

/-- Exchanges follow each other from one moment to another. -/
inductive Passes (function : FunctionName) (polled : Nat → Except DeployFailure Bool) :
    Moment → List Exchanged → Moment → Prop where
  | nil (moment : Moment) : Passes function polled moment [] moment
  | cons {first middle last : Moment} {exchange : Exchanged} {later : List Exchanged}
      (answers : Answers function polled first exchange middle)
      (passes : Passes function polled middle later last) :
      Passes function polled first (exchange :: later) last

variable {first middle last : Moment} {before after : List Exchanged}

/-- At one moment, alike questions are answered alike. -/
theorem Answers.unique {one other : Exchanged} {next : Moment}
    (answers : Answers function polled first one middle)
    (others : Answers function polled first other next) (same : one.1 = other.1) :
    one = other ∧ middle = next := by
  cases answers <;> cases others <;> cases same <;> exact ⟨rfl, rfl⟩

/-- Passages of time follow each other. -/
theorem Passes.append (one : Passes function polled first before middle)
    (two : Passes function polled middle after last) :
    Passes function polled first (before ++ after) last := by
  induction one with
  | nil => exact two
  | cons answers _ ih => exact .cons answers (ih two)

end

end Moment

open Moment

/-- Of two runs that begin at one moment, each is a beginning of the other or goes on after it. -/
theorem Task.Runs.comparable {σ ρ : Type} [Task σ ρ] {function : FunctionName}
    {polled : Nat → Except DeployFailure Bool} {first last stop : σ} {moment reached other : Moment}
    {exchanges others : List Exchanged} (runs : Task.Runs first exchanges last)
    (passes : Passes function polled moment exchanges reached)
    (otherRuns : Task.Runs first others stop)
    (otherPasses : Passes function polled moment others other) :
    (∃ rest, Task.Runs last rest stop ∧ Passes function polled reached rest other) ∨
      ∃ rest, Task.Runs stop rest last ∧ Passes function polled other rest reached := by
  induction runs generalizing moment others with
  | here state =>
      cases passes
      exact Or.inl ⟨others, otherRuns, otherPasses⟩
  | ask asks answer runs ih =>
      rcases otherRuns.of_ask asks with ⟨rfl, rfl⟩ | ⟨otherAnswer, later, rfl, laterRuns⟩
      · cases otherPasses
        exact Or.inr ⟨_, .ask asks answer runs, passes⟩
      · cases passes with
        | cons answers passes =>
            cases otherPasses with
            | cons otherAnswers otherPasses =>
                -- The moment settles the answer, so both runs go on from one state.
                obtain ⟨same, rfl⟩ := answers.unique otherAnswers rfl
                cases same
                exact ih passes laterRuns otherPasses
  | acquire acquires runs ih =>
      rcases otherRuns.of_acquire acquires with ⟨rfl, rfl⟩ | laterRuns
      · cases otherPasses
        exact Or.inr ⟨_, .acquire acquires runs, passes⟩
      · exact ih passes laterRuns otherPasses
  | release releases runs ih =>
      rcases otherRuns.of_release releases with ⟨rfl, rfl⟩ | laterRuns
      · cases otherPasses
        exact Or.inr ⟨_, .release releases runs, passes⟩
      · exact ih passes laterRuns otherPasses

namespace Deployment

/-! ### Waiting -/

/-- From one stage and moment to another the deployment waits, polls or goes on. -/
def Waits (deployment : Deployment) (polled : Nat → Except DeployFailure Bool) (stage : Stage)
    (moment : Moment) (next : Stage) (later : Moment) : Prop :=
  ∃ exchanges, Task.Runs (Reconciliation.mk deployment (.outside stage)) exchanges
      (Reconciliation.mk deployment (.outside next)) ∧
    Passes deployment.function polled moment exchanges later

/-- The deployment comes from one stage and moment to another: every run that keeps time is on the
way there, or has gone on from there. -/
def ComesTo (deployment : Deployment) (polled : Nat → Except DeployFailure Bool) (stage : Stage)
    (moment : Moment) (next : Stage) (later : Moment) : Prop :=
  Waits deployment polled stage moment next later ∧ ∀ exchanges last reached,
    Task.Runs (Reconciliation.mk deployment (.outside stage)) exchanges last →
    Passes deployment.function polled moment exchanges reached →
    (∃ rest, Task.Runs last rest (Reconciliation.mk deployment (.outside next)) ∧
      Passes deployment.function polled reached rest later) ∨
    ∃ rest, Task.Runs (Reconciliation.mk deployment (.outside next)) rest last ∧
      Passes deployment.function polled later rest reached

/-- How a wait ends, after how many polls, given that the poll of an index is the last one that is
made: by the first answer that tells more than that the function is still changing, or for
want of one. -/
inductive Verdict (deployment : Deployment) (polled : Nat → Except DeployFailure Bool)
    (final : Nat) : Nat → Option DeployFailure → Prop where
  | stable {index : Nat} (made : index ≤ final) (before : ∀ i < index, polled i = .ok false)
      (answer : polled index = .ok true) : Verdict deployment polled final (index + 1) none
  | failed {index : Nat} {failure : DeployFailure} (made : index ≤ final)
      (before : ∀ i < index, polled i = .ok false) (answer : polled index = .error failure) :
      Verdict deployment polled final (index + 1) (some failure)
  | timedOut (all : ∀ i ≤ final, polled i = .ok false) :
      Verdict deployment polled final (final + 1)
        (some (.timedOut deployment.function (final * deployment.options.pollInterval)))

section Waiting

variable {deployment : Deployment} {polled : Nat → Except DeployFailure Bool}
  {progress : Progress} {start index final polls : Nat} {outcome : Option DeployFailure}

/-- Waiting can be continued. -/
theorem Waits.trans {first second third : Stage} {begun reached ended : Moment}
    (one : Waits deployment polled first begun second reached)
    (two : Waits deployment polled second reached third ended) :
    Waits deployment polled first begun third ended := by
  obtain ⟨before, runs, passes⟩ := one
  obtain ⟨after, laterRuns, laterPasses⟩ := two
  exact ⟨before ++ after, runs.append laterRuns, passes.append laterPasses⟩

private theorem Waits.comesTo {stage next : Stage} {begun ended : Moment}
    (waits : Waits deployment polled stage begun next ended) :
    ComesTo deployment polled stage begun next ended := by
  refine ⟨waits, fun exchanges last reached runs passes => ?_⟩
  obtain ⟨whole, wholeRuns, wholePasses⟩ := waits
  exact runs.comparable passes wholeRuns wholePasses

/-- A wait begins with a look at the clock. -/
theorem waits_timing : Waits deployment polled (.timing progress) ⟨start, 0⟩
    (.before (.poll progress start)) ⟨start, 0⟩ :=
  ⟨_, .ask rfl start (.here _), .cons (.clock _) (.nil _)⟩

private theorem waits_poll (since : Nat) (moment : Moment) {stage : Stage}
    (leads : deployment.after (.poll progress since) (polled moment.polls) = stage) :
    Waits deployment polled (.before (.poll progress since)) moment stage
      ⟨moment.now, moment.polls + 1⟩ :=
  ⟨_, runs_errand (.poll progress since) (polled moment.polls) leads (.here _),
    .cons (.poll moment) (.nil _)⟩

private theorem waits_checking (since : Nat) (moment : Moment) {stage : Stage}
    (leads : deployment.check progress since moment.now = stage) :
    Waits deployment polled (.checking progress since) moment stage moment := by
  subst leads
  exact ⟨_, .ask rfl moment.now (.here _), .cons (.clock moment) (.nil _)⟩

private theorem waits_pausing (since : Nat) (moment : Moment) :
    Waits deployment polled (.pausing progress since) moment (.before (.poll progress since))
      ⟨moment.now + deployment.options.pollInterval, moment.polls⟩ :=
  ⟨_, .ask rfl () (.here _), .cons (.sleep moment _) (.nil _)⟩

/-- While there is time left, a poll that finds the function changing is followed by another one. -/
theorem waits_again (short : index * deployment.options.pollInterval < deployment.options.maxWait)
    (answer : polled index = .ok false) :
    Waits deployment polled (.before (.poll progress start))
      ⟨start + index * deployment.options.pollInterval, index⟩ (.before (.poll progress start))
      ⟨start + (index + 1) * deployment.options.pollInterval, index + 1⟩ := by
  have polls := @waits_poll deployment polled progress start
    ⟨start + index * deployment.options.pollInterval, index⟩ (.checking progress start)
    (by rw [answer]; rfl)
  have checks := @waits_checking deployment polled progress start
    ⟨start + index * deployment.options.pollInterval, index + 1⟩ (.pausing progress start)
    (by rw [check, Nat.add_sub_cancel_left, if_neg (Nat.not_le_of_lt short)])
  have pauses := @waits_pausing deployment polled progress start
    ⟨start + index * deployment.options.pollInterval, index + 1⟩
  rw [Nat.succ_mul, ← Nat.add_assoc]
  exact polls.trans (checks.trans pauses)

/-- The polls of a wait are made one poll interval apart. -/
theorem waits_many
    (again : ∀ i < index, polled i = .ok false ∧
      i * deployment.options.pollInterval < deployment.options.maxWait) :
    Waits deployment polled (.timing progress) ⟨start, 0⟩ (.before (.poll progress start))
      ⟨start + index * deployment.options.pollInterval, index⟩ := by
  induction index with
  | zero =>
      rw [Nat.zero_mul]
      exact waits_timing
  | succ index ih =>
      obtain ⟨answer, short⟩ := again index (Nat.lt_succ_self index)
      exact (ih fun i below => again i (Nat.lt_succ_of_lt below)).trans (waits_again short answer)

/-- A wait ends as its verdict says, and takes as long as the pauses between its polls. -/
theorem waits_of_verdict
    (last : IsLeast {n | deployment.options.maxWait ≤ n * deployment.options.pollInterval} final)
    (verdict : Verdict deployment polled final polls outcome) :
    Waits deployment polled (.timing progress) ⟨start, 0⟩ (deployment.settled progress outcome)
      ⟨start + (polls - 1) * deployment.options.pollInterval, polls⟩ := by
  -- The last poll is the first one without time left, so there is some before every other.
  have short {i : Nat} (below : i < final) :
      i * deployment.options.pollInterval < deployment.options.maxWait :=
    Nat.lt_of_not_le fun long => Nat.not_le_of_lt below (last.2 long)
  cases verdict with
  | stable made before answer =>
      refine (waits_many fun i below => ⟨before i below, short (by omega)⟩).trans ?_
      exact waits_poll start _ (by rw [answer]; rfl)
  | failed made before answer =>
      refine (waits_many fun i below => ⟨before i below, short (by omega)⟩).trans ?_
      exact waits_poll start _ (by rw [answer]; rfl)
  | timedOut all =>
      refine (waits_many fun i below => ⟨all i below.le, short below⟩).trans ?_
      have polls := @waits_poll deployment polled progress start
        ⟨start + final * deployment.options.pollInterval, final⟩ (.checking progress start)
        (by rw [all final le_rfl]; rfl)
      have long : deployment.options.maxWait ≤ final * deployment.options.pollInterval := last.1
      apply polls.trans
      apply waits_checking
      rw [check, Nat.add_sub_cancel_left, if_pos long]
      rfl

/-- There is a verdict whatever the answers are. -/
theorem exists_verdict (deployment : Deployment) (polled : Nat → Except DeployFailure Bool)
    (final : Nat) : ∃ polls outcome, Verdict deployment polled final polls outcome := by
  classical
  by_cases all : ∀ i ≤ final, polled i = .ok false
  · exact ⟨_, _, .timedOut all⟩
  · have tells : ∃ i, i ≤ final ∧ polled i ≠ .ok false := by simpa using all
    obtain ⟨made, telling⟩ := Nat.find_spec tells
    have before : ∀ i < Nat.find tells, polled i = .ok false := by
      intro i below
      by_contra differs
      exact Nat.find_min tells below ⟨by omega, differs⟩
    cases answer : polled (Nat.find tells) with
    | error failure => exact ⟨_, _, .failed made before answer⟩
    | ok stable =>
        cases stable with
        | true => exact ⟨_, _, .stable made before answer⟩
        | false => exact absurd answer telling

private theorem Verdict.polls_le (verdict : Verdict deployment polled final polls outcome) :
    polls ≤ final + 1 := by
  cases verdict <;> omega

end Waiting

/-- Where time passes in pauses only, a wait makes its last poll at the first multiple of the poll
interval that is no shorter than the longest wait, unless an answer ends it before.  Every
answer that is given decides, also the last one. -/
theorem waits_until_stable (deployment : Deployment) (progress : Progress)
    (positive : 0 < deployment.options.pollInterval)
    (polled : Nat → Except DeployFailure Bool) (start : Nat) :
    ∃ final, IsLeast {n | deployment.options.maxWait ≤ n * deployment.options.pollInterval} final ∧
      final * deployment.options.pollInterval <
        deployment.options.maxWait + deployment.options.pollInterval ∧
      (∃ polls outcome, Verdict deployment polled final polls outcome) ∧
      ∀ polls outcome, Verdict deployment polled final polls outcome →
        polls ≤ final + 1 ∧ ComesTo deployment polled (.timing progress) ⟨start, 0⟩
          (deployment.settled progress outcome)
          ⟨start + (polls - 1) * deployment.options.pollInterval, polls⟩ := by
  have bounded : ∃ n, deployment.options.maxWait ≤ n * deployment.options.pollInterval :=
    ⟨_, Nat.le_mul_of_pos_right _ positive⟩
  have last : IsLeast {n | deployment.options.maxWait ≤ n * deployment.options.pollInterval}
      (Nat.find bounded) :=
    ⟨Nat.find_spec bounded, fun n long => Nat.find_min' bounded long⟩
  refine ⟨Nat.find bounded, last, ?_, exists_verdict deployment polled _,
    fun polls outcome verdict => ⟨verdict.polls_le, (waits_of_verdict last verdict).comesTo⟩⟩
  cases found : Nat.find bounded with
  | zero => omega
  | succ n =>
      have short : n * deployment.options.pollInterval < deployment.options.maxWait :=
        Nat.lt_of_not_le (Nat.find_min bounded (by omega))
      rw [Nat.succ_mul]
      exact Nat.add_lt_add_right short _

/-- With an interval of four and a longest wait of ten, a function that is stable at the fourth poll
is found so, after twelve. -/
theorem waits_until_stable_last :
    let deployment : Deployment :=
      ⟨⟨"app"⟩, .ofBytes [], ⟨"handler", 256, 10, 512⟩, "role",
        { DeployOptions.standard with pollInterval := 4, maxWait := 10 }⟩
    let polled : Nat → Except DeployFailure Bool := fun index => .ok (index == 3)
    let progress : Progress := ⟨[.create], .inline [], []⟩
    0 < deployment.options.pollInterval ∧ Verdict deployment polled 3 4 none ∧
      ComesTo deployment polled (.timing progress) ⟨0, 0⟩
        (.ended (.ok ⟨deployment.function, [.create]⟩)) ⟨12, 4⟩ := by
  intro deployment polled progress
  obtain ⟨final, last, -, -, comesTo⟩ := waits_until_stable deployment progress (by decide) polled 0
  have three :
      IsLeast {n | deployment.options.maxWait ≤ n * deployment.options.pollInterval} 3 := by
    refine ⟨by decide, fun n (long : 10 ≤ n * 4) => ?_⟩
    omega
  obtain rfl := last.unique three
  have verdict : Verdict deployment polled 3 4 none := by
    refine .stable le_rfl (fun i below => ?_) rfl
    exact congrArg Except.ok (beq_false_of_ne (by omega))
  exact ⟨by decide, verdict, (comesTo 4 none verdict).2⟩

end Deployment

end FunctionBundler
