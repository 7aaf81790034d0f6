/-
Module: FunctionBundler.Task.Pool
Purpose: Tasks that share permits.
Trusted boundary: none
Main exports:
  Slot, Pool, Turn, Pool.turn, Pool.start
-/
import FunctionBundler.Task

namespace FunctionBundler

/-!
The tasks of a pool take turns in any order.  A permit is taken only when one is
free, and a task that panics gives back the permit it has.  Everything else that a
task asks is passed on to the surroundings.
-/

/-- A task of a pool: still a task, or ended by a panic that had a cause. -/
inductive Slot (σ : Type) where
  | active (state : σ)
  | aborted (cause : String)
deriving Repr, DecidableEq

/-- Tasks, and how many permits are free. -/
structure Pool (σ : Type) where
  free : Nat
  slots : List (Slot σ)

/-- What happens when something is given its turn: it moves by itself, or it asks the surroundings
and moves when they react. -/
inductive Turn (σ : Type) where
  | moved (next : σ)
  | asked (request : Request) (resume : Reply request.Answer → σ)

/-- The same turn of something with other states. -/
def Turn.map {σ τ : Type} (f : σ → τ) : Turn σ → Turn τ
  | .moved next => .moved (f next)
  | .asked request resume => .asked request fun reply => f (resume reply)

namespace Pool

variable {σ ρ : Type} [Task σ ρ]

/-- A pool of tasks that start now, with permits of which there is at least one. -/
def start (permits : Nat) (tasks : List σ) : Pool σ :=
  ⟨max permits 1, tasks.map .active⟩

/-- The pool with another task in a slot. -/
def put (pool : Pool σ) (index : Nat) (slot : Slot σ) : Pool σ :=
  { pool with slots := pool.slots.set index slot }

/-- The pool after the task of a slot panicked in a state. -/
def abort (pool : Pool σ) (index : Nat) (state : σ) (cause : String) : Pool σ :=
  { pool.put index (.aborted cause) with
    free := if Task.holdsPermit state then pool.free + 1 else pool.free }

/-- What the task of a slot does when it has its turn; nothing if it has ended or has to wait for a
permit. -/
def turn (pool : Pool σ) (index : Nat) : Option (Turn (Pool σ)) :=
  match pool.slots[index]? with
  | none | some (.aborted _) => none
  | some (.active state) =>
    match Task.step state with
    | .ask request resume =>
      some (.asked request fun
        | .answered answer => pool.put index (.active (resume answer))
        | .panicked cause => pool.abort index state cause)
    | .acquire next =>
      match pool.free with
      | 0 => none
      | free + 1 => some (.moved { pool.put index (.active next) with free })
    | .release next =>
      some (.moved { pool.put index (.active next) with free := pool.free + 1 })
    | .ended _ => none

/-- How the task of a slot ended, if it has: with a result, or by a panic. -/
def slotResult? : Slot σ → Option (Reply ρ)
  | .aborted cause => some (.panicked cause)
  | .active state =>
    match Task.step state with
    | .ended result => some (.answered result)
    | _ => none

/-- How all tasks ended, if all have. -/
def results? (pool : Pool σ) : Option (List (Reply ρ)) :=
  pool.slots.mapM slotResult?

end Pool

end FunctionBundler
