/-
Module: FunctionBundler.Task
Purpose: Tasks that run side by side: what they ask, and how one of them runs.
Trusted boundary: none
Main exports:
  Event, Request, Request.Answer, Talk, Step, Task, Task.Runs, Reply
-/
import FunctionBundler.Deploy.Remote
import FunctionBundler.Environment.Operation
import FunctionBundler.Files.Access
import FunctionBundler.Program

namespace FunctionBundler

/-!
A task is a state with a next step: it asks its surroundings something and goes
on with the answer, takes one of the permits that it shares with other tasks or
gives it back, or has ended.  Unlike a `Program`, a task may go on for ever.
-/

/-- What a user is told about the progress of a run. -/
inductive Event where
  | heading (title : String)
  | packaging (entry : String)
  | packaged (entry : String) (archive : Path) (size : Nat)
  | deploying (entry : String) (function : FunctionName)
  | deployed (entry : String) (function : FunctionName) (detail : String)
  | failed (entry reason : String)
  | warning (message : String)
deriving DecidableEq

/-- What a task asks: the file system, the build environment, the user's attention, the platform,
the time in milliseconds, or to be left alone for some milliseconds. -/
inductive Request where
  | access (access : Access)
  | environment (operation : Operation)
  | announce (event : Event)
  | call (call : RemoteCall)
  | clock
  | sleep (duration : Nat)
deriving DecidableEq

/-- What is answered to a request. -/
abbrev Request.Answer : Request → Type
  | .access wanted => wanted.Answer
  | .environment operation => operation.Answer
  | .announce _ | .sleep _ => Unit
  | .call made => made.Answer
  | .clock => Nat

/-- A stretch of a task that comes to an end by itself. -/
abbrev Talk := Program Request Request.Answer

/-- Ask one thing. -/
def Talk.ask (request : Request) : Talk request.Answer :=
  Program.query request

/-- The next step of a task with states `σ` that ends with `ρ`. -/
inductive Step (σ ρ : Type) where
  | ask (request : Request) (resume : request.Answer → σ)
  | acquire (next : σ)
  | release (next : σ)
  | ended (result : ρ)

/-- The same step as a part of a larger task, which goes on by itself when the part has ended. -/
def Step.within {σ τ ρ θ : Type} (f : σ → τ) (finish : ρ → Step τ θ) : Step σ ρ → Step τ θ
  | .ask request resume => .ask request fun answer => f (resume answer)
  | .acquire next => .acquire (f next)
  | .release next => .release (f next)
  | .ended result => finish result

/-- The next step of a stretch. -/
def Talk.step {α : Type} : Talk α → Step (Talk α) α
  | Program.done result => .ended result
  | Program.ask request resume => .ask request resume

/-- States from which a task goes on; `holdsPermit` says whether it has a permit in a state. -/
class Task (σ : Type) (ρ : outParam Type) where
  step : σ → Step σ ρ
  holdsPermit : σ → Bool

/-- A request together with an answer to it. -/
abbrev Exchanged := Program.Exchange Request Request.Answer

/-- The task runs by itself from one state to another, with these exchanges on the way; permits are
there whenever it takes one. -/
inductive Task.Runs {σ ρ : Type} [Task σ ρ] : σ → List Exchanged → σ → Prop where
  | here (state : σ) : Task.Runs state [] state
  | ask {state last : σ} {request : Request} {resume : request.Answer → σ} {rest : List Exchanged}
      (asks : Task.step (ρ := ρ) state = .ask request resume) (answer : request.Answer) :
      Task.Runs (resume answer) rest last → Task.Runs state (⟨request, answer⟩ :: rest) last
  | acquire {state next last : σ} {rest : List Exchanged}
      (acquires : Task.step (ρ := ρ) state = .acquire next) :
      Task.Runs next rest last → Task.Runs state rest last
  | release {state next last : σ} {rest : List Exchanged}
      (releases : Task.step (ρ := ρ) state = .release next) :
      Task.Runs next rest last → Task.Runs state rest last

/-- How the surroundings react to a request: by an answer, or by a panic that ends the task and has
a cause. -/
inductive Reply (α : Type) where
  | answered (answer : α)
  | panicked (cause : String)
deriving Repr, DecidableEq

end FunctionBundler
