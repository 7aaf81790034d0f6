/-
Module: FunctionBundler.Proofs.Task.Traffic
Purpose: The permits that the tasks of a pool take and give back while their requests are under way.
Trusted boundary: none
Main exports:
  Traffic, Traffic.Step, Traffic.Course, permitsOf, Task.Guarded, Traffic.Frees, Traffic.Regulated,
  Traffic.Course.accounted, Traffic.Accounted.regulated
-/
import FunctionBundler.Proofs.Task.Pool
import Mathlib.Data.List.Nodup
import Mathlib.Data.List.Perm.Subperm

namespace FunctionBundler

/-!
A request and its reply are two events: between them the other tasks go on, and many
requests can be under way.  A ledger kept from the events alone says how many permits a
task has.  Tasks that hold a permit exactly while they make a call keep to what
`Traffic.Regulated` lists, along every course of events: there are never more calls
under way than permits, and a permit that somebody waits for comes back.
-/

/-- Whether a request is a call to the platform or the object store. -/
def Request.isCall : Request → Bool
  | .call _ => true
  | .access _ | .environment _ | .announce _ | .clock | .sleep _ => false

/-- What happens to the task of a slot: it takes a permit, gives one back, makes a request, or has
it answered or ended by a panic. -/
inductive Happening where
  | acquired (index : Nat)
  | released (index : Nat)
  | asked (index : Nat) (request : Request)
  | replied (index : Nat) (request : Request) (reply : Reply request.Answer)

/-- The slot whose task something happens to. -/
def Happening.index : Happening → Nat
  | .acquired index | .released index | .asked index _ | .replied index _ _ => index

/-- A pool, with the requests that its tasks have made and that nobody has replied to. -/
structure Traffic (σ : Type) where
  pool : Pool σ
  underway : List (Nat × Request)

namespace Traffic

variable {σ ρ : Type} [Task σ ρ]

/-- Tasks that start now, with permits of which there is at least one. -/
def start (permits : Nat) (tasks : List σ) : Traffic σ :=
  ⟨.start permits tasks, []⟩

/-- What can happen: a turn of a task that moves by itself, or either end of one that asks. -/
inductive Step : Traffic σ → Happening → Traffic σ → Prop where
  | acquired {traffic : Traffic σ} {index : Nat} {state after : σ} {next : Pool σ}
      (active : traffic.pool.slots[index]? = some (.active state))
      (acquires : Task.step (ρ := ρ) state = .acquire after)
      (turn : traffic.pool.turn index = some (.moved next)) :
      Step traffic (.acquired index) { traffic with pool := next }
  | released {traffic : Traffic σ} {index : Nat} {state after : σ} {next : Pool σ}
      (active : traffic.pool.slots[index]? = some (.active state))
      (releases : Task.step (ρ := ρ) state = .release after)
      (turn : traffic.pool.turn index = some (.moved next)) :
      Step traffic (.released index) { traffic with pool := next }
  | asked {traffic : Traffic σ} {index : Nat} {request : Request}
      {resume : Reply request.Answer → Pool σ}
      (idle : index ∉ traffic.underway.map Prod.fst)
      (turn : traffic.pool.turn index = some (.asked request resume)) :
      Step traffic (.asked index request)
        { traffic with underway := (index, request) :: traffic.underway }
  | replied {traffic : Traffic σ} {index : Nat} {request : Request}
      {resume : Reply request.Answer → Pool σ}
      (awaited : (index, request) ∈ traffic.underway)
      (turn : traffic.pool.turn index = some (.asked request resume))
      (reply : Reply request.Answer) :
      Step traffic (.replied index request reply)
        ⟨resume reply, traffic.underway.erase (index, request)⟩

/-- What happened on the way from one state of the traffic to another. -/
inductive Course : Traffic σ → List Happening → Traffic σ → Prop where
  | nil (traffic : Traffic σ) : Course traffic [] traffic
  | concat {first middle last : Traffic σ} {history : List Happening} {happening : Happening} :
      Course first history middle → Step middle happening last →
      Course first (history ++ [happening]) last

end Traffic

/-! ### The ledger -/

/-- How many permits the task of a slot has after something happened. -/
def Happening.permitsAfter (index : Nat) (had : Int) : Happening → Int
  | .acquired taker => if taker = index then had + 1 else had
  | .released giver => if giver = index then had - 1 else had
  | .asked _ _ | .replied _ _ (.answered _) => had
  -- A task that panics loses what it has.
  | .replied asker _ (.panicked _) => if asker = index then 0 else had

/-- How many permits the task of a slot has after all that happened. -/
def permitsOf (index : Nat) (history : List Happening) : Int :=
  history.foldl (Happening.permitsAfter index) 0

private theorem permitsOf_concat (index : Nat) (history : List Happening) (happening : Happening) :
    permitsOf index (history ++ [happening]) =
      happening.permitsAfter index (permitsOf index history) := by
  rw [permitsOf, List.foldl_append]
  rfl

/-! ### Tasks that hold permits for their calls only -/

namespace Task

variable {σ ρ : Type} [Task σ ρ]

/-- The task gives a permit back before it takes one or ends, whatever it is answered. -/
inductive Returns : σ → Prop where
  | release {state next : σ} (releases : Task.step (ρ := ρ) state = .release next) : Returns state
  | ask {state : σ} {request : Request} {resume : request.Answer → σ}
      (asks : Task.step (ρ := ρ) state = .ask request resume)
      (returns : ∀ answer, Returns (resume answer)) : Returns state

/-- Tasks that hold a permit for every call and for no other request, and that give it back. -/
class Guarded (σ : Type) {ρ : outParam Type} [Task σ ρ] : Prop extends Careful σ where
  holds_of_ask : ∀ {state : σ} {request : Request} {resume : request.Answer → σ},
    Task.step state = .ask request resume → Task.holdsPermit state = request.isCall
  returns_of_holds : ∀ {state : σ}, Task.holdsPermit state = true → Returns state

end Task

namespace Pool

variable {σ ρ : Type} [Task σ ρ] {pool next : Pool σ} {index other : Nat}

/-- Whether the task of a slot holds a permit. -/
def holdsAt (pool : Pool σ) (index : Nat) : Bool :=
  pool.slots[index]?.any slotHolds

private theorem holdsAt_eq {slot : Slot σ} (there : pool.slots[index]? = some slot) :
    pool.holdsAt index = slotHolds slot := by
  rw [holdsAt, there, Option.any_some]

/-- How many permits the task of a slot has. -/
def permitAt (pool : Pool σ) (index : Nat) : Int :=
  if pool.holdsAt index then 1 else 0

private theorem permitAt_of_holds (holds : pool.holdsAt index = true) : pool.permitAt index = 1 :=
  if_pos holds

private theorem permitAt_of_not_holds (without : pool.holdsAt index = false) :
    pool.permitAt index = 0 :=
  if_neg (Bool.eq_false_iff.mp without)

private theorem Takes.holdsAt_ne {asked : Option ((request : Request) × Reply request.Answer)}
    (takes : pool.Takes index asked next) (differs : index ≠ other) :
    next.holdsAt other = pool.holdsAt other := by
  rw [holdsAt, holdsAt, takes.getElem?_ne differs]

private theorem Takes.getElem?_of_acquire {state after : σ} (takes : pool.Takes index none next)
    (active : pool.slots[index]? = some (.active state))
    (acquires : Task.step (ρ := ρ) state = .acquire after) :
    next.slots[index]? = some (.active after) := by
  obtain ⟨other, slot, there, becomes, does⟩ := takes.does
  cases active.symm.trans there
  cases does with
  | acquires acquired =>
      cases acquires.symm.trans acquired
      exact becomes
  | releases releases => cases acquires.symm.trans releases

private theorem Takes.getElem?_of_release {state after : σ} (takes : pool.Takes index none next)
    (active : pool.slots[index]? = some (.active state))
    (releases : Task.step (ρ := ρ) state = .release after) :
    next.slots[index]? = some (.active after) := by
  obtain ⟨other, slot, there, becomes, does⟩ := takes.does
  cases active.symm.trans there
  cases does with
  | acquires acquires => cases releases.symm.trans acquires
  | releases released =>
      cases releases.symm.trans released
      exact becomes

/-- A task that asks has its turn, and its slot is changed by the reply. -/
theorem exists_turn_of_ask {state : σ} {request : Request} {resume : request.Answer → σ}
    (active : pool.slots[index]? = some (.active state))
    (asks : Task.step (ρ := ρ) state = .ask request resume) :
    ∃ goesOn, pool.turn index = some (.asked request goesOn) ∧
      (∀ answer, goesOn (.answered answer) = pool.put index (.active (resume answer))) ∧
      ∀ cause, goesOn (.panicked cause) = pool.abort index state cause := by
  rw [turn, active]
  dsimp only
  rw [asks]
  exact ⟨_, rfl, fun _ => rfl, fun _ => rfl⟩

private theorem turn_of_release {state after : σ}
    (active : pool.slots[index]? = some (.active state))
    (releases : Task.step (ρ := ρ) state = .release after) :
    pool.turn index = some
      (.moved { pool.put index (.active after) with free := pool.free + 1 }) := by
  rw [turn, active]
  dsimp only
  rw [releases]

/-- Who has ended holds no permit. -/
theorem not_holds_of_ended [Task.Careful σ] {slot : Slot σ} {result : Reply ρ}
    (ended : slotResult? slot = some result) : slotHolds slot = false := by
  cases slot with
  | aborted => rfl
  | active state =>
      rw [slotResult?] at ended
      split at ended
      case h_1 ends => exact Task.careful_of_step ends
      case h_2 => cases ended

/-- The task of a slot asks something. -/
def AsksAt (pool : Pool σ) (index : Nat) (request : Request) : Prop :=
  ∃ (state : σ) (resume : request.Answer → σ),
    pool.slots[index]? = some (.active state) ∧ Task.step (ρ := ρ) state = .ask request resume

private theorem asksAt_of_turn {request : Request} {resume : Reply request.Answer → Pool σ}
    (turn : pool.turn index = some (.asked request resume)) : pool.AsksAt index request := by
  obtain ⟨state, slot, active, -, does⟩ := (takes_of_turn_asked turn (.panicked "")).does
  cases does with
  | panicked asks => exact ⟨state, _, active, asks⟩

private theorem AsksAt.step_eq {request : Request} {state : σ} (asks : pool.AsksAt index request)
    (active : pool.slots[index]? = some (.active state)) :
    ∃ resume, Task.step (ρ := ρ) state = .ask request resume := by
  obtain ⟨asker, resume, there, asks⟩ := asks
  cases active.symm.trans there
  exact ⟨resume, asks⟩

/-- Turns of other tasks leave it asking. -/
theorem AsksAt.of_takes {request : Request}
    {asked : Option ((request : Request) × Reply request.Answer)}
    (asks : pool.AsksAt other request) (takes : pool.Takes index asked next)
    (differs : index ≠ other) : next.AsksAt other request := by
  obtain ⟨state, resume, active, asks⟩ := asks
  exact ⟨state, resume, (takes.getElem?_ne differs).trans active, asks⟩

/-- Slots with different indices whose tasks hold a permit each are no more than the holders. -/
theorem length_le_holders {indices : List Nat} (distinct : indices.Nodup)
    (holding : ∀ index ∈ indices, pool.holdsAt index = true) :
    indices.length ≤ pool.holders := by
  let holders := pool.slots.zipIdx.filter fun slot => slotHolds slot.1
  have counted : holders.length = pool.holders := by
    rw [Pool.holders, ← List.zipIdx_map_fst 0 pool.slots, List.countP_map,
      List.countP_eq_length_filter]
    rfl
  have among : indices ⊆ holders.map Prod.snd := by
    intro index member
    have holds := holding index member
    rw [holdsAt, Option.any_eq_true] at holds
    obtain ⟨slot, there, holds⟩ := holds
    apply List.mem_map.mpr
    exact ⟨(slot, index),
      List.mem_filter.mpr ⟨List.mem_zipIdx_iff_getElem?.mpr there, holds⟩, rfl⟩
  calc indices.length
      ≤ (holders.map Prod.snd).length := (List.subperm_of_subset distinct among).length_le
    _ = pool.holders := by rw [List.length_map, counted]

private theorem exists_holder (positive : 0 < pool.holders) : ∃ (index : Nat) (state : σ),
    pool.slots[index]? = some (.active state) ∧ Task.holdsPermit state = true := by
  obtain ⟨slot, member, holds⟩ := List.countP_pos_iff.mp positive
  obtain ⟨index, there⟩ := List.mem_iff_getElem?.mp member
  cases slot with
  | aborted => cases holds
  | active state => exact ⟨index, state, there, holds⟩

end Pool

namespace Traffic

variable {σ ρ : Type} [Task σ ρ] {traffic next : Traffic σ} {happening : Happening} {index : Nat}

/-! ### What one step keeps -/

/-- A request is made, and the pool waits; anything else is a turn of the pool. -/
theorem Step.pool_eq_or_takes (steps : Step traffic happening next) :
    next.pool = traffic.pool ∨ ∃ index asked, traffic.pool.Takes index asked next.pool := by
  cases steps with
  | acquired _ _ turn | released _ _ turn =>
      exact Or.inr ⟨_, _, Pool.takes_of_turn_moved turn⟩
  | asked => exact Or.inl rfl
  | replied _ turn reply => exact Or.inr ⟨_, _, Pool.takes_of_turn_asked turn reply⟩

/-- A step keeps permits balanced. -/
theorem Step.balanced [Task.Careful σ] {permits : Nat} (steps : Step traffic happening next)
    (balanced : traffic.pool.Balanced permits) : next.pool.Balanced permits := by
  rcases steps.pool_eq_or_takes with same | ⟨_, _, takes⟩
  · rwa [same]
  · exact takes.balanced balanced

/-- A step changes only the slot of its task. -/
theorem Step.holdsAt_ne (steps : Step traffic happening next) (differs : happening.index ≠ index) :
    next.pool.holdsAt index = traffic.pool.holdsAt index := by
  cases steps with
  | acquired _ _ turn | released _ _ turn =>
      exact (Pool.takes_of_turn_moved turn).holdsAt_ne differs
  | asked => rfl
  | replied _ turn reply => exact (Pool.takes_of_turn_asked turn reply).holdsAt_ne differs

/-- What happens to a task changes what it has as the pool says. -/
theorem Step.permitsAfter_self [Task.Careful σ] (steps : Step traffic happening next) :
    happening.permitsAfter happening.index (traffic.pool.permitAt happening.index) =
      next.pool.permitAt happening.index := by
  cases steps with
  | acquired active acquires turn =>
      obtain ⟨without, holding⟩ := Task.careful_of_step acquires
      have becomes := (Pool.takes_of_turn_moved turn).getElem?_of_acquire active acquires
      rw [Happening.index, Happening.permitsAfter, if_pos rfl,
        Pool.permitAt_of_not_holds ((Pool.holdsAt_eq active).trans without),
        Pool.permitAt_of_holds ((Pool.holdsAt_eq becomes).trans holding), Int.zero_add]
  | released active releases turn =>
      obtain ⟨holding, without⟩ := Task.careful_of_step releases
      have becomes := (Pool.takes_of_turn_moved turn).getElem?_of_release active releases
      rw [Happening.index, Happening.permitsAfter, if_pos rfl,
        Pool.permitAt_of_holds ((Pool.holdsAt_eq active).trans holding),
        Pool.permitAt_of_not_holds ((Pool.holdsAt_eq becomes).trans without), Int.sub_self]
  | asked => rfl
  | replied awaited turn reply =>
      obtain ⟨state, slot, there, becomes, does⟩ := (Pool.takes_of_turn_asked turn reply).does
      cases does with
      | answered asks answer =>
          have same := Task.careful_of_step asks answer
          rw [Happening.index, Happening.permitsAfter, Pool.permitAt, Pool.permitAt,
            Pool.holdsAt_eq there, Pool.holdsAt_eq becomes, Pool.slotHolds, Pool.slotHolds, same]
      | panicked asks =>
          rw [Happening.index, Happening.permitsAfter, if_pos rfl,
            Pool.permitAt_of_not_holds (Pool.holdsAt_eq becomes)]

private theorem permitsAfter_ne (had : Int) (differs : happening.index ≠ index) :
    happening.permitsAfter index had = had := by
  cases happening with
  | acquired | released => exact if_neg differs
  | asked => rfl
  | replied asker request reply =>
      cases reply with
      | answered => rfl
      | panicked => exact if_neg differs

private theorem Step.permitsAfter [Task.Careful σ] (steps : Step traffic happening next)
    (index : Nat) :
    happening.permitsAfter index (traffic.pool.permitAt index) = next.pool.permitAt index := by
  by_cases same : happening.index = index
  · rw [← same]
    exact steps.permitsAfter_self
  · rw [permitsAfter_ne _ same, Pool.permitAt, Pool.permitAt, steps.holdsAt_ne same]

/-! ### Requests under way -/

/-- The tasks that wait for a reply are different ones, and each asks what is under way. -/
structure Awaits (traffic : Traffic σ) : Prop where
  distinct : (traffic.underway.map Prod.fst).Nodup
  asks : ∀ index request, (index, request) ∈ traffic.underway → traffic.pool.AsksAt index request

/-- A task whose request has been replied to waits for no other reply. -/
theorem Awaits.not_mem_erase {request : Request} (awaits : traffic.Awaits)
    (awaited : (index, request) ∈ traffic.underway) :
    index ∉ (traffic.underway.erase (index, request)).map Prod.fst := by
  intro member
  obtain ⟨⟨asker, other⟩, left, rfl⟩ := List.mem_map.mp member
  have same := List.inj_on_of_nodup_map awaits.distinct (List.mem_of_mem_erase left) awaited rfl
  rw [same] at left
  exact awaits.distinct.of_map.not_mem_erase left

/-- A task that does not ask waits for no reply. -/
theorem Awaits.not_mem_of_quiet {state : σ} (awaits : traffic.Awaits)
    (active : traffic.pool.slots[index]? = some (.active state))
    (quiet : ∀ (request : Request) (resume : request.Answer → σ),
      Task.step (ρ := ρ) state ≠ .ask request resume) :
    index ∉ traffic.underway.map Prod.fst := by
  intro member
  obtain ⟨⟨asker, request⟩, awaited, rfl⟩ := List.mem_map.mp member
  obtain ⟨resume, asks⟩ := (awaits.asks asker request awaited).step_eq active
  exact quiet request resume asks

/-- After a turn of a task, the others wait as before. -/
theorem Awaits.of_takes {asked : Option ((request : Request) × Reply request.Answer)}
    {after : Pool σ} {left : List (Nat × Request)} (awaits : traffic.Awaits)
    (takes : traffic.pool.Takes index asked after) (within : left.Sublist traffic.underway)
    (others : index ∉ left.map Prod.fst) : Awaits ⟨after, left⟩ where
  distinct := (within.map Prod.fst).nodup awaits.distinct
  asks other request awaited := by
    have differs : index ≠ other := by
      rintro rfl
      exact others (List.mem_map_of_mem awaited)
    exact (awaits.asks other request (within.subset awaited)).of_takes takes differs

private theorem Step.awaits (steps : Step traffic happening next) (awaits : traffic.Awaits) :
    next.Awaits := by
  cases steps with
  | acquired active acquires turn =>
      have quiet := awaits.not_mem_of_quiet active fun _ _ asks => by
        cases acquires.symm.trans asks
      exact awaits.of_takes (Pool.takes_of_turn_moved turn) (List.Sublist.refl _) quiet
  | released active releases turn =>
      have quiet := awaits.not_mem_of_quiet active fun _ _ asks => by
        cases releases.symm.trans asks
      exact awaits.of_takes (Pool.takes_of_turn_moved turn) (List.Sublist.refl _) quiet
  | @asked index request resume idle turn =>
      refine ⟨List.nodup_cons.mpr ⟨idle, awaits.distinct⟩, fun other wanted awaited => ?_⟩
      rcases List.mem_cons.mp awaited with same | before
      · cases same
        exact Pool.asksAt_of_turn turn
      · exact awaits.asks other wanted before
  | replied awaited turn reply =>
      exact awaits.of_takes (Pool.takes_of_turn_asked turn reply) List.erase_sublist
        (awaits.not_mem_erase awaited)

/-! ### What every course keeps -/

/-- Permits are kept, the ledger agrees with the pool, and requests under way are asked. -/
structure Accounted (permits : Nat) (history : List Happening) (traffic : Traffic σ) : Prop where
  balanced : traffic.pool.Balanced (max permits 1)
  ledger : ∀ index, permitsOf index history = traffic.pool.permitAt index
  awaits : traffic.Awaits

private theorem accounted_start (permits : Nat) {tasks : List σ}
    (without : ∀ task ∈ tasks, Task.holdsPermit task = false) :
    Accounted permits [] (start permits tasks) where
  balanced := Pool.balanced_start permits without
  ledger index := by
    have nothing : (start permits tasks).pool.holdsAt index = false := by
      change ((tasks.map Slot.active)[index]?).any Pool.slotHolds = false
      rw [List.getElem?_map]
      cases there : tasks[index]? with
      | none => rfl
      | some task => exact without task (List.mem_of_getElem? there)
    rw [Pool.permitAt_of_not_holds nothing]
    rfl
  awaits := ⟨List.nodup_nil, fun _ _ awaited => nomatch awaited⟩

/-- A step keeps the account of permits. -/
theorem Step.accounted [Task.Careful σ] {permits : Nat} {history : List Happening}
    (steps : Step traffic happening next) (accounted : Accounted permits history traffic) :
    Accounted permits (history ++ [happening]) next where
  balanced := steps.balanced accounted.balanced
  ledger index := by rw [permitsOf_concat, accounted.ledger, steps.permitsAfter]
  awaits := steps.awaits accounted.awaits

/-- The account of permits is right in every course. -/
theorem Course.accounted [Task.Careful σ] {permits : Nat} {tasks : List σ}
    {history : List Happening} {last : Traffic σ}
    (without : ∀ task ∈ tasks, Task.holdsPermit task = false)
    (course : Course (start permits tasks) history last) : Accounted permits history last := by
  generalize begins : start permits tasks = first at course
  induction course with
  | nil =>
      subst begins
      exact accounted_start permits without
  | concat _ steps ih => exact steps.accounted ih

/-! ### Permits come back -/

/-- By its own steps, without taking another permit and whatever it is replied, the task of a slot
comes to a point where more than some number of permits are free. -/
inductive Frees (index free : Nat) : Traffic σ → Prop where
  | done {traffic : Traffic σ} (more : free < traffic.pool.free) : Frees index free traffic
  | releases {traffic next : Traffic σ} (steps : Step traffic (.released index) next) :
      Frees index free next → Frees index free traffic
  | asks {traffic next : Traffic σ} {request : Request}
      (steps : Step traffic (.asked index request) next) :
      Frees index free next → Frees index free traffic
  | hears {traffic : Traffic σ} {request : Request} {next : Reply request.Answer → Traffic σ}
      (steps : ∀ reply, Step traffic (.replied index request reply) (next reply)) :
      (∀ reply, Frees index free (next reply)) → Frees index free traffic

/-- A task whose request is under way hears the reply, and a panic frees its permit. -/
theorem frees_of_awaited {free : Nat} {state : σ} {request : Request}
    {resume : request.Answer → σ} (active : traffic.pool.slots[index]? = some (.active state))
    (asks : Task.step (ρ := ρ) state = .ask request resume)
    (holds : Task.holdsPermit state = true) (least : free ≤ traffic.pool.free)
    (awaited : (index, request) ∈ traffic.underway)
    (answered : ∀ answer, Frees index free
      ⟨traffic.pool.put index (.active (resume answer)),
        traffic.underway.erase (index, request)⟩) :
    Frees index free traffic := by
  obtain ⟨goesOn, turn, answers, panics⟩ := Pool.exists_turn_of_ask active asks
  refine .hears (fun reply => .replied awaited turn reply) fun reply => ?_
  cases reply with
  | answered answer =>
      rw [answers]
      exact answered answer
  | panicked =>
      rw [panics]
      apply Frees.done
      rw [Pool.abort, holds]
      exact Nat.lt_succ_of_le least

/-- A task that returns its permit frees it. -/
theorem frees_of_returns [Task.Careful σ] {free : Nat} {state : σ}
    (returns : Task.Returns (ρ := ρ) state)
    (active : traffic.pool.slots[index]? = some (.active state))
    (holds : Task.holdsPermit state = true) (least : free ≤ traffic.pool.free)
    (idle : index ∉ traffic.underway.map Prod.fst) : Frees index free traffic := by
  induction returns generalizing traffic with
  | release releases =>
      exact .releases (.released active releases (Pool.turn_of_release active releases))
        (.done (Nat.lt_succ_of_le least))
  | @ask state request resume asks _ ih =>
      obtain ⟨goesOn, turn, -, -⟩ := Pool.exists_turn_of_ask active asks
      apply Frees.asks (.asked idle turn)
      refine frees_of_awaited active asks holds least List.mem_cons_self fun answer => ?_
      refine ih answer (Pool.getElem?_set_of_getElem? _ active)
        ((Task.careful_of_step asks answer).trans holds) least ?_
      rw [List.erase_cons_head]
      exact idle

/-- Whoever holds a permit frees it. -/
theorem Awaits.frees [Task.Guarded σ] {state : σ} (awaits : traffic.Awaits)
    (active : traffic.pool.slots[index]? = some (.active state))
    (holds : Task.holdsPermit state = true) : Frees index traffic.pool.free traffic := by
  have returns := Task.Guarded.returns_of_holds holds
  by_cases idle : index ∉ traffic.underway.map Prod.fst
  · exact frees_of_returns returns active holds (Nat.le_refl _) idle
  · obtain ⟨⟨asker, request⟩, awaited, rfl⟩ := List.mem_map.mp (not_not.mp idle)
    obtain ⟨resume, asks⟩ := (awaits.asks _ _ awaited).step_eq active
    refine frees_of_awaited active asks holds (Nat.le_refl _) awaited fun answer => ?_
    cases returns with
    | release releases => cases asks.symm.trans releases
    | ask asked returns =>
        cases asks.symm.trans asked
        exact frees_of_returns (returns answer) (Pool.getElem?_set_of_getElem? _ active)
          ((Task.careful_of_step asks answer).trans holds) (Nat.le_refl _)
            (awaits.not_mem_erase awaited)

/-! ### Regulated traffic -/

/-- How a semaphore is to regulate tasks after some history, for the given number of permits. -/
structure Regulated (permits : Nat) (history : List Happening) (traffic : Traffic σ) : Prop where
  bounded : traffic.underway.countP (fun asked => asked.2.isCall) ≤ max permits 1
  covered : ∀ index request, (index, request) ∈ traffic.underway →
    permitsOf index history = if request.isCall then 1 else 0
  single : ∀ index, permitsOf index history = 0 ∨ permitsOf index history = 1
  ended : ∀ index slot result, traffic.pool.slots[index]? = some slot →
    Pool.slotResult? (ρ := ρ) slot = some result → permitsOf index history = 0
  returned : traffic.pool.results? ≠ none → traffic.pool.free = max permits 1
  waits : ∀ index state after, traffic.pool.slots[index]? = some (.active state) →
    Task.step (ρ := ρ) state = .acquire after → 0 < traffic.pool.free ∨
      ∃ holder, holder ≠ index ∧ permitsOf holder history = 1 ∧
        Frees holder traffic.pool.free traffic

namespace Accounted

variable [Task.Guarded σ] {permits : Nat} {history : List Happening}

/-- Whoever waits for the reply to a call holds a permit, whoever waits for another does not. -/
theorem holdsAt_of_awaited {request : Request} (accounted : Accounted permits history traffic)
    (awaited : (index, request) ∈ traffic.underway) :
    traffic.pool.holdsAt index = request.isCall := by
  obtain ⟨state, resume, active, asks⟩ := accounted.awaits.asks index request awaited
  rw [Pool.holdsAt_eq active]
  exact Task.Guarded.holds_of_ask asks

/-- No more calls are underway than there are permits. -/
theorem bounded (accounted : Accounted permits history traffic) :
    traffic.underway.countP (fun asked => asked.2.isCall) ≤ max permits 1 := by
  let calls := traffic.underway.filter fun asked => asked.2.isCall
  have distinct : (calls.map Prod.fst).Nodup :=
    (List.filter_sublist.map Prod.fst).nodup accounted.awaits.distinct
  have holding : ∀ index ∈ calls.map Prod.fst, traffic.pool.holdsAt index = true := by
    intro index member
    obtain ⟨⟨asker, request⟩, call, rfl⟩ := List.mem_map.mp member
    obtain ⟨awaited, isCall⟩ := List.mem_filter.mp call
    exact (accounted.holdsAt_of_awaited awaited).trans isCall
  have balanced := accounted.balanced
  calc traffic.underway.countP (fun asked => asked.2.isCall)
      = (calls.map Prod.fst).length := by rw [List.length_map, List.countP_eq_length_filter]
    _ ≤ traffic.pool.holders := Pool.length_le_holders distinct holding
    _ ≤ max permits 1 := by
      rw [Pool.Balanced] at balanced
      omega

/-- A task that waits for a permit can have one at once, or another holds one that it can let go. -/
theorem waits {state after : σ} (accounted : Accounted permits history traffic)
    (active : traffic.pool.slots[index]? = some (.active state))
    (acquires : Task.step (ρ := ρ) state = .acquire after) :
    0 < traffic.pool.free ∨ ∃ holder, holder ≠ index ∧ permitsOf holder history = 1 ∧
      Frees holder traffic.pool.free traffic := by
  rcases Nat.eq_zero_or_pos traffic.pool.free with none | available
  · -- All permits are held, and not by the task that waits for one.
    have positive : 0 < traffic.pool.holders := by
      have balanced := accounted.balanced
      rw [Pool.Balanced, none] at balanced
      omega
    obtain ⟨holder, holding, there, holds⟩ := Pool.exists_holder positive
    refine Or.inr ⟨holder, fun same => ?_, ?_, accounted.awaits.frees there holds⟩
    · subst same
      cases active.symm.trans there
      cases holds.symm.trans (Task.careful_of_step acquires).1
    · rw [accounted.ledger]
      exact Pool.permitAt_of_holds ((Pool.holdsAt_eq there).trans holds)
  · exact Or.inl available

/-- Traffic whose accounts are right is regulated. -/
theorem regulated (accounted : Accounted permits history traffic) :
    Regulated permits history traffic where
  bounded := accounted.bounded
  covered index request awaited := by
    rw [accounted.ledger, Pool.permitAt, accounted.holdsAt_of_awaited awaited]
  single index := by
    rw [accounted.ledger]
    cases holds : traffic.pool.holdsAt index with
    | false => exact Or.inl (Pool.permitAt_of_not_holds holds)
    | true => exact Or.inr (Pool.permitAt_of_holds holds)
  ended index slot result there ended := by
    rw [accounted.ledger]
    apply Pool.permitAt_of_not_holds
    exact (Pool.holdsAt_eq there).trans (Pool.not_holds_of_ended ended)
  returned ended := by
    have nobody : traffic.pool.holders = 0 := by
      rw [Pool.holders, List.countP_eq_zero]
      intro slot member
      obtain ⟨result, ends⟩ :=
        Option.ne_none_iff_exists'.mp (Pool.slotResult?_ne_none ended slot member)
      rw [Pool.not_holds_of_ended ends]
      exact Bool.false_ne_true
    have balanced := accounted.balanced
    rwa [Pool.Balanced, nobody] at balanced
  waits _ _ _ active acquires := accounted.waits active acquires

end Accounted

end Traffic

end FunctionBundler
