/-
Module: FunctionBundler.Run.Schedule
Purpose: Letting actors take turns until none can go on, with time that passes only by waiting.
Trusted boundary: none
Main exports:
  Surroundings, Schedule, Schedule.pause, Schedule.start, Schedule.run
-/
import FunctionBundler.Task.Pool

namespace FunctionBundler

/-!
An actor has its turn until it has to wait: for another actor, or for an answer
that takes some time.  Then the next one that is ready has its turn.  Whenever
something has changed, those who waited for other actors are looked at first, the
longest waiting before the others, so that nobody overtakes them.  When nobody is
ready, the clock moves on to the first moment at which someone need wait no longer.
A pause of no time is none, and none is longer than thirty years.  A schedule is one
of the orders in which the actors of a pool or a run can work.
-/

/-- Surroundings that react to requests: how long a request is waited for when it is made, if it is
not answered during the same turn, and the reaction at the end of that time. -/
structure Surroundings (m : Type → Type) where
  wait : Request → m (Option Nat)
  reaction : (now : Nat) → (request : Request) → m (Reply request.Answer)

/-- A schedule of the actors of a state: the time, the state, who is ready and whether a wait has
just ended, who cannot go on, and who waits until what time. -/
structure Schedule (σ α : Type) where
  now : Nat
  state : σ
  ready : List (α × Bool)
  stuck : List α
  waiting : List (α × Nat)

namespace Schedule

variable {m : Type → Type} [Monad m] {σ α : Type}

/-- The longest pause, in milliseconds: thirty years of 365 days. -/
def longestPause : Nat := 30 * 365 * 24 * 60 * 60 * 1000

/-- How long a pause is waited for, if it takes any time. -/
def pause (duration : Nat) : Option Nat :=
  if duration = 0 then none else some (min duration longestPause)

/-- The schedule at its beginning. -/
def start (state : σ) (actors : List α) : Schedule σ α :=
  ⟨0, state, actors.map fun actor => (actor, false), [], []⟩

/-- Look at an actor that could not go on: if it can now move by itself, it does so at once. -/
def reviveOne (turn : σ → α → Option (Turn σ)) (schedule : Schedule σ α) (actor : α) :
    Schedule σ α :=
  match turn schedule.state actor with
  | none => { schedule with stuck := schedule.stuck ++ [actor] }
  | some (.moved next) =>
    { schedule with state := next, ready := schedule.ready ++ [(actor, false)] }
  | some (.asked _ _) => { schedule with ready := schedule.ready ++ [(actor, false)] }

/-- Look at all actors that could not go on. -/
def revive (turn : σ → α → Option (Turn σ)) (schedule : Schedule σ α) : Schedule σ α :=
  schedule.stuck.foldl (reviveOne turn) { schedule with stuck := [] }

/-- Let an actor have its turn, for `steps` steps at most; `waited` says that the answer to what it
asks is due. -/
def advance (surroundings : Surroundings m) (turn : σ → α → Option (Turn σ)) (actor : α) :
    (steps : Nat) → (waited : Bool) → Schedule σ α → m (Schedule σ α)
  | 0, _, schedule => return schedule
  | steps + 1, waited, schedule =>
    match turn schedule.state actor with
    | none => return { schedule with stuck := schedule.stuck ++ [actor] }
    | some (.moved next) =>
      advance surroundings turn actor steps false (revive turn { schedule with state := next })
    | some (.asked request resume) => do
      match ← if waited then pure none else surroundings.wait request with
      | none =>
        let reply ← surroundings.reaction schedule.now request
        advance surroundings turn actor steps false
          (revive turn { schedule with state := resume reply })
      | some duration =>
        return { schedule with waiting := schedule.waiting ++ [(actor, schedule.now + duration)] }

/-- Let turns follow each other until nothing can happen any more, `turns` of them at most, with as
many steps each at most. -/
def run (surroundings : Surroundings m) (turn : σ → α → Option (Turn σ)) :
    (turns : Nat) → Schedule σ α → m (Schedule σ α)
  | 0, schedule => return schedule
  | turns + 1, schedule => do
    match schedule.ready with
    | (actor, waited) :: ready =>
      run surroundings turn turns
        (← advance surroundings turn actor turns waited { schedule with ready })
    | [] =>
      match schedule.waiting.map (·.2) with
      | [] => return schedule
      | time :: times =>
        let now := times.foldl min time
        let (due, waiting) := schedule.waiting.partition fun entry => entry.2 ≤ now
        run surroundings turn turns
          { schedule with now, waiting, ready := due.map fun entry => (entry.1, true) }

end Schedule

end FunctionBundler
