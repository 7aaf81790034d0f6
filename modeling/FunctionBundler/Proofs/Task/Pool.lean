/-
Module: FunctionBundler.Proofs.Task.Pool
Purpose: What one turn of a task does to its pool, and that permits are never lost.
Trusted boundary: none
Main exports:
  Pool.Takes, Pool.takes_of_turn_moved, Pool.takes_of_turn_asked, Task.Careful, Pool.Balanced,
  Pool.exists_turn
-/
import FunctionBundler.Entry
import FunctionBundler.Task.Pool

namespace FunctionBundler

/-!
A turn of a task takes a permit, gives one back, or has a request answered or ended by
a panic; `Pool.Takes` says which and what the pool is afterwards.  Tasks that hold a
permit exactly between taking it and giving it back keep the number of permits, free
and held ones together.  Such a task never waits for a permit while it holds one, so
as long as a pool has any permit, some task that has not ended can go on.
-/

namespace Pool

variable {σ ρ : Type} [Task σ ρ]

/-- What the task of a slot does in one turn, with the request and the reply if it asks, and the
pool after it. -/
inductive Takes (pool : Pool σ) (index : Nat) :
    Option ((request : Request) × Reply request.Answer) → Pool σ → Prop where
  | acquires {state next : σ} {free : Nat} (active : pool.slots[index]? = some (.active state))
      (acquires : Task.step (ρ := ρ) state = .acquire next) (available : pool.free = free + 1) :
      Takes pool index none { pool.put index (.active next) with free }
  | releases {state next : σ} (active : pool.slots[index]? = some (.active state))
      (releases : Task.step (ρ := ρ) state = .release next) :
      Takes pool index none { pool.put index (.active next) with free := pool.free + 1 }
  | answered {state : σ} {request : Request} {resume : request.Answer → σ}
      (active : pool.slots[index]? = some (.active state))
      (asks : Task.step (ρ := ρ) state = .ask request resume) (answer : request.Answer) :
      Takes pool index (some ⟨request, .answered answer⟩) (pool.put index (.active (resume answer)))
  | panicked {state : σ} {request : Request} {resume : request.Answer → σ}
      (active : pool.slots[index]? = some (.active state))
      (asks : Task.step (ρ := ρ) state = .ask request resume) (cause : String) :
      Takes pool index (some ⟨request, .panicked cause⟩) (pool.abort index state cause)

variable {pool next : Pool σ} {index : Nat}

/-- A turn without a question takes the pool on. -/
theorem takes_of_turn_moved (turn : pool.turn index = some (.moved next)) :
    pool.Takes index none next := by
  rw [Pool.turn] at turn
  split at turn
  case h_1 | h_2 => cases turn
  case h_3 state active =>
      split at turn
      case h_1 | h_4 => cases turn
      case h_2 after acquires =>
          split at turn
          case h_1 => cases turn
          case h_2 free available =>
              cases turn
              exact .acquires active acquires available
      case h_3 after releases =>
          cases turn
          exact .releases active releases

/-- A turn with a question takes the pool on, whatever is answered. -/
theorem takes_of_turn_asked {request : Request} {resume : Reply request.Answer → Pool σ}
    (turn : pool.turn index = some (.asked request resume)) (reply : Reply request.Answer) :
    pool.Takes index (some ⟨request, reply⟩) (resume reply) := by
  rw [Pool.turn] at turn
  split at turn
  case h_1 | h_2 => cases turn
  case h_3 state active =>
      split at turn
      case h_1 made after asks =>
          cases turn
          cases reply with
          | answered answer => exact .answered active asks answer
          | panicked cause => exact .panicked active asks cause
      case h_2 after acquires => split at turn <;> cases turn
      case h_3 | h_4 => cases turn

/-- A task that has its turn for nothing has ended, or waits for a permit and none is free. -/
theorem of_turn_eq_none {state : σ} (waits : pool.turn index = none)
    (active : pool.slots[index]? = some (.active state)) :
    (∃ result, Task.step (ρ := ρ) state = .ended result) ∨
      (pool.free = 0 ∧ ∃ after, Task.step (ρ := ρ) state = .acquire after) := by
  rw [Pool.turn, active] at waits
  dsimp only at waits
  split at waits
  case h_1 | h_3 => cases waits
  case h_2 after acquires =>
      split at waits
      case h_1 none => exact Or.inr ⟨none, after, acquires⟩
      case h_2 => cases waits
  case h_4 result ended => exact Or.inl ⟨result, ended⟩

end Pool

/-- A step of a task that takes a permit only without one, gives one back only with one, keeps or
lacks it while it asks, and has none at its end. -/
def Step.Careful {σ ρ : Type} (holds : Bool) (holdsAfter : σ → Bool) : Step σ ρ → Prop
  | .ask _ resume => ∀ answer, holdsAfter (resume answer) = holds
  | .acquire next => holds = false ∧ holdsAfter next = true
  | .release next => holds = true ∧ holdsAfter next = false
  | .ended _ => holds = false

/-- Tasks that hold a permit exactly from taking it to giving it back. -/
class Task.Careful (σ : Type) {ρ : outParam Type} [Task σ ρ] : Prop where
  careful : ∀ state : σ, (Task.step state).Careful (Task.holdsPermit state) Task.holdsPermit

/-- The steps of a careful task, each by its kind. -/
theorem Task.careful_of_step {σ ρ : Type} [Task σ ρ] [Task.Careful σ] {state : σ}
    {step : Step σ ρ} (taken : Task.step state = step) :
    step.Careful (Task.holdsPermit state) Task.holdsPermit := by
  rw [← taken]
  exact Task.Careful.careful state

namespace Pool

variable {σ ρ : Type} [Task σ ρ] {pool next : Pool σ} {index : Nat}

/-! ### Slots -/

/-- No turn changes the number of slots. -/
theorem Takes.length_eq {asked : Option ((request : Request) × Reply request.Answer)}
    (takes : pool.Takes index asked next) : next.slots.length = pool.slots.length := by
  cases takes with
  | acquires | releases | answered | panicked => exact List.length_set

/-- A turn changes only the slot of its task. -/
theorem Takes.getElem?_ne {asked : Option ((request : Request) × Reply request.Answer)}
    (takes : pool.Takes index asked next) {other : Nat} (differs : index ≠ other) :
    next.slots[other]? = pool.slots[other]? := by
  cases takes with
  | acquires | releases | answered | panicked => exact List.getElem?_set_ne differs

/-- What is set where something was is found there. -/
theorem getElem?_set_of_getElem? {slots : List (Slot σ)} {before : Slot σ} (after : Slot σ)
    (there : slots[index]? = some before) : (slots.set index after)[index]? = some after :=
  List.getElem?_set_self (List.getElem?_eq_some_iff.mp there).1

/-- What a task does in one turn, with the request and the reply if it asks, and its slot
after it. -/
inductive Does (state : σ) :
    Option ((request : Request) × Reply request.Answer) → Slot σ → Prop where
  | acquires {next : σ} (acquires : Task.step (ρ := ρ) state = .acquire next) :
      Does state none (.active next)
  | releases {next : σ} (releases : Task.step (ρ := ρ) state = .release next) :
      Does state none (.active next)
  | answered {request : Request} {resume : request.Answer → σ}
      (asks : Task.step (ρ := ρ) state = .ask request resume) (answer : request.Answer) :
      Does state (some ⟨request, .answered answer⟩) (.active (resume answer))
  | panicked {request : Request} {resume : request.Answer → σ}
      (asks : Task.step (ρ := ρ) state = .ask request resume) (cause : String) :
      Does state (some ⟨request, .panicked cause⟩) (.aborted cause)

/-- A turn changes the slot of its task as the task says. -/
theorem Takes.does {asked : Option ((request : Request) × Reply request.Answer)}
    (takes : pool.Takes index asked next) :
    ∃ state slot, pool.slots[index]? = some (.active state) ∧ next.slots[index]? = some slot ∧
      Does state asked slot := by
  cases takes with
  | acquires active acquires =>
      exact ⟨_, _, active, getElem?_set_of_getElem? _ active, .acquires acquires⟩
  | releases active releases =>
      exact ⟨_, _, active, getElem?_set_of_getElem? _ active, .releases releases⟩
  | answered active asks answer =>
      exact ⟨_, _, active, getElem?_set_of_getElem? _ active, .answered asks answer⟩
  | panicked active asks cause =>
      exact ⟨_, _, active, getElem?_set_of_getElem? _ active, .panicked asks cause⟩

/-! ### Ends -/

/-- A pool has results exactly if each of its slots has one. -/
theorem results?_eq_some_iff {ends : List (Reply ρ)} :
    pool.results? = some ends ↔ pool.slots.map slotResult? = ends.map some := by
  rw [results?]
  induction pool.slots generalizing ends with
  | nil =>
      rw [List.mapM_nil]
      cases ends with
      | nil => exact ⟨fun _ => rfl, fun _ => rfl⟩
      | cons => exact ⟨nofun, nofun⟩
  | cons slot slots ih =>
      rw [List.mapM_cons, List.map_cons]
      cases slotResult? slot with
      | none => cases ends <;> exact ⟨nofun, nofun⟩
      | some first =>
          cases ends with
          | nil => cases List.mapM slotResult? slots <;> exact ⟨nofun, nofun⟩
          | cons other ends =>
              rw [List.map_cons, List.cons.injEq, ← ih]
              cases List.mapM slotResult? slots <;>
                simp [Option.bind_eq_bind, Option.some.injEq]

/-- No slot of a pool with results is without one. -/
theorem slotResult?_ne_none (ended : pool.results? ≠ none) :
    ∀ slot ∈ pool.slots, slotResult? slot ≠ none := by
  intro slot member
  obtain ⟨ends, found⟩ := Option.ne_none_iff_exists'.mp ended
  have result : slotResult? slot ∈ pool.slots.map slotResult? := List.mem_map_of_mem member
  rw [results?_eq_some_iff.mp found] at result
  obtain ⟨reply, -, same⟩ := List.mem_map.mp result
  rw [← same]
  exact nofun

private theorem exists_of_results?_eq_none (unfinished : pool.results? = none) :
    ∃ slot ∈ pool.slots, slotResult? slot = none := by
  rw [results?] at unfinished
  generalize pool.slots = slots at unfinished ⊢
  induction slots with
  | nil => cases unfinished
  | cons slot slots ih =>
      rw [List.mapM_cons] at unfinished
      cases ended : slotResult? slot with
      | none => exact ⟨slot, List.mem_cons_self, ended⟩
      | some first =>
          cases others : List.mapM slotResult? slots with
          | none =>
              obtain ⟨other, member, running⟩ := ih others
              exact ⟨other, List.mem_cons_of_mem slot member, running⟩
          | some ends =>
              rw [ended, others] at unfinished
              cases unfinished

/-! ### Permits -/

/-- Whether the task of a slot holds a permit. -/
def slotHolds : Slot σ → Bool
  | .active state => Task.holdsPermit state
  | .aborted _ => false

/-- How many tasks hold a permit. -/
def holders (pool : Pool σ) : Nat :=
  pool.slots.countP slotHolds

/-- A pool of a number of permits, free and held ones together. -/
def Balanced (permits : Nat) (pool : Pool σ) : Prop :=
  pool.free + pool.holders = permits

/-- In the beginning all permits are left. -/
theorem balanced_start (permits : Nat) {tasks : List σ}
    (without : ∀ task ∈ tasks, Task.holdsPermit task = false) :
    Balanced (max permits 1) (start permits tasks) := by
  have none : (start permits tasks).holders = 0 := by
    rw [holders, List.countP_eq_zero]
    intro slot member
    obtain ⟨task, isTask, rfl⟩ := List.mem_map.mp member
    rw [slotHolds, without task isTask]
    exact Bool.false_ne_true
  rw [Balanced, none]
  rfl

private theorem holders_put {before after : Slot σ} (there : pool.slots[index]? = some before) :
    (pool.put index after).holders + (slotHolds before).toNat =
      pool.holders + (slotHolds after).toNat := by
  obtain ⟨inside, same⟩ := List.getElem?_eq_some_iff.mp there
  have counted : (slotHolds before).toNat ≤ pool.holders := by
    cases held : slotHolds before with
    | false => exact Nat.zero_le _
    | true =>
        apply List.countP_pos_iff.mpr
        exact ⟨before, List.mem_of_getElem? there, held⟩
  have exchanged : (pool.put index after).holders =
      pool.holders - (if slotHolds before then 1 else 0) + if slotHolds after then 1 else 0 := by
    rw [← same]
    exact List.countP_set inside
  rw [exchanged]
  cases held : slotHolds before <;> cases holds : slotHolds after <;>
    simp only [held, Bool.toNat_false, Bool.toNat_true, Bool.false_eq_true, if_true,
      if_false] at counted ⊢ <;> omega

/-- A turn keeps permits balanced. -/
theorem Takes.balanced [Task.Careful σ] {permits : Nat}
    {asked : Option ((request : Request) × Reply request.Answer)}
    (takes : pool.Takes index asked next) (balanced : Balanced permits pool) :
    Balanced permits next := by
  rw [Balanced] at balanced ⊢
  cases takes with
  | @acquires state after free active acquires available =>
      obtain ⟨without, holding⟩ := Task.careful_of_step acquires
      have moved := @holders_put _ _ _ pool index _ (.active after) active
      rw [slotHolds, slotHolds, without, holding] at moved
      change free + (pool.put index (.active after)).holders = permits
      simp only [Bool.toNat_false, Bool.toNat_true] at moved
      omega
  | @releases state after active releases =>
      obtain ⟨holding, without⟩ := Task.careful_of_step releases
      have moved := @holders_put _ _ _ pool index _ (.active after) active
      rw [slotHolds, slotHolds, holding, without] at moved
      change pool.free + 1 + (pool.put index (.active after)).holders = permits
      simp only [Bool.toNat_false, Bool.toNat_true] at moved
      omega
  | @answered state request resume active asks answer =>
      have same := Task.careful_of_step asks answer
      have moved := @holders_put _ _ _ pool index _ (.active (resume answer)) active
      rw [slotHolds, slotHolds, same] at moved
      change pool.free + (pool.put index (.active (resume answer))).holders = permits
      omega
  | @panicked state request resume active asks cause =>
      have moved := @holders_put _ _ _ pool index _ (.aborted cause) active
      rw [slotHolds, slotHolds] at moved
      change (if Task.holdsPermit state then pool.free + 1 else pool.free) +
        (pool.put index (.aborted cause)).holders = permits
      cases held : Task.holdsPermit state <;>
        simp only [held, Bool.toNat_false, Bool.toNat_true, if_true, Bool.false_eq_true,
          if_false] at moved ⊢ <;> omega

/-- As long as some task has not ended, some task can go on. -/
theorem exists_turn [Task.Careful σ] {permits : Nat} (balanced : Balanced permits pool)
    (positive : 0 < permits) (unfinished : pool.results? = none) :
    ∃ index, pool.turn index ≠ none := by
  apply Classical.byContradiction
  intro stuck
  have waits (index : Nat) : pool.turn index = none :=
    Classical.byContradiction fun moves => stuck ⟨index, moves⟩
  -- Whoever has not ended waits for a permit, so nobody holds one, and then one is free.
  have waiting {state : σ} (member : Slot.active state ∈ pool.slots) :
      (∃ result, Task.step (ρ := ρ) state = .ended result) ∨
        (pool.free = 0 ∧ ∃ after, Task.step (ρ := ρ) state = .acquire after) := by
    obtain ⟨index, active⟩ := List.mem_iff_getElem?.mp member
    exact of_turn_eq_none (waits index) active
  have nobody : pool.holders = 0 := by
    rw [holders, List.countP_eq_zero]
    intro slot member holds
    cases slot with
    | aborted => cases holds
    | active state =>
        rw [slotHolds] at holds
        rcases waiting member with ⟨result, ended⟩ | ⟨-, after, acquires⟩
        · cases holds.symm.trans (Task.careful_of_step ended)
        · cases holds.symm.trans (Task.careful_of_step acquires).1
  obtain ⟨slot, member, running⟩ := exists_of_results?_eq_none unfinished
  cases slot with
  | aborted => cases running
  | active state =>
      rcases waiting member with ⟨result, ended⟩ | ⟨none, -⟩
      · rw [slotResult?, ended] at running
        cases running
      · rw [Balanced, none, nobody] at balanced
        omega

end Pool

/-! ### The tasks of a run -/

instance : Task.Careful Reconciliation where
  careful state := by
    obtain ⟨deployment, position⟩ := state
    cases position with
    | calling errand => exact fun _ => rfl
    | leaving stage => exact ⟨rfl, rfl⟩
    | outside stage =>
        cases stage with
        | before errand => exact ⟨rfl, rfl⟩
        | timing | checking | pausing => exact fun _ => rfl
        | ended result => exact rfl

/-- What follows a part of a task is as careful as the part. -/
theorem Step.Careful.within {σ τ ρ θ : Type} {holds : Bool} {part : σ → Bool} {whole : τ → Bool}
    {f : σ → τ} {finish : ρ → Step τ θ} {step : Step σ ρ} (careful : step.Careful holds part)
    (same : ∀ state, whole (f state) = part state)
    (finishes : ∀ result, (finish result).Careful false whole) :
    (step.within f finish).Careful holds whole := by
  cases step with
  | ask request resume => exact fun answer => (same _).trans (careful answer)
  | acquire next | release next => exact ⟨careful.1, (same next).trans careful.2⟩
  | ended result =>
      change holds = false at careful
      rw [careful]
      exact finishes result

private theorem EntryTask.careful_afterPackaging (task : EntryTask)
    (result : Except Failure Packaged) :
    (task.afterPackaging result).Careful false Task.holdsPermit := by
  cases result with
  | error failure => exact fun _ => rfl
  | ok packaged =>
      rw [EntryTask.afterPackaging]
      cases task.build.deployment? packaged <;> exact fun _ => rfl

private theorem EntryTask.careful_afterDeploying (task : EntryTask) (deployment : Deployment)
    (result : Except DeployFailure DeployReport) :
    (task.afterDeploying deployment result).Careful false Task.holdsPermit := by
  cases result <;> exact fun _ => rfl

instance : Task.Careful EntryTask where
  careful task := by
    obtain ⟨build, entry, stage⟩ := task
    cases stage with
    | arriving => exact fun _ => rfl
    | packaging rest =>
        cases rest with
        | done result => exact EntryTask.careful_afterPackaging _ result
        | ask request resume => exact fun _ => rfl
    | deploying reconciliation =>
        let task : EntryTask := ⟨build, entry, .deploying reconciliation⟩
        have finishes := task.careful_afterDeploying reconciliation.deployment
        have careful := Task.Careful.careful reconciliation
        exact @Step.Careful.within _ _ _ _ _ _ Task.holdsPermit
          (fun next => task.goTo (.deploying next)) _ _ careful (fun _ => rfl) finishes
    | ended outcome => exact rfl

end FunctionBundler
