/-
Module: FunctionBundler.Run.Trace
Purpose: What can happen in a run, in any order of turns, on a file system.
Trusted boundary: none
Main exports:
  Scene, Label, Reacts, Scene.Step, Scene.Trace, Pool.Step, Pool.Reaches
-/
import FunctionBundler.Run

namespace FunctionBundler

/-!
A scene is a run together with the file system that it works on.  `Scene.Step`
says what one turn can lead to: the file system answers as it must, and the
environment, the platform and the clock answer whatever they like.  Only stripping
lets the environment change files.  A trace is a sequence of such steps.
-/

/-- A run and its file system. -/
structure Scene where
  run : Run
  files : Files

/-- What happens in one turn: an actor moves by itself, or asks something and gets a reply. -/
inductive Label where
  | moved (actor : Actor)
  | exchange (actor : Actor) (request : Request) (reply : Reply request.Answer)

/-- How surroundings may react to a request, and the file system after it. -/
inductive Reacts : Files → (request : Request) → Reply request.Answer → Files → Prop where
  | access (files : Files) (wanted : Access) :
      Reacts files (.access wanted) (.answered (files.answer wanted).1) (files.answer wanted).2
  | strip (files changed : Files) (executable : Path)
      (reply : Reply (Operation.strip executable).Answer) :
      Reacts files (.environment (.strip executable)) reply changed
  | environment (files : Files) (operation : Operation) (reply : Reply operation.Answer) :
      Reacts files (.environment operation) reply files
  | announce (files : Files) (event : Event) :
      Reacts files (.announce event) (.answered ()) files
  | call (files : Files) (made : RemoteCall) (reply : Reply made.Answer) :
      Reacts files (.call made) reply files
  | clock (files : Files) (now : Nat) : Reacts files .clock (.answered now) files
  | sleep (files : Files) (duration : Nat) : Reacts files (.sleep duration) (.answered ()) files

/-- What one turn can lead to. -/
inductive Scene.Step : Scene → Label → Scene → Prop where
  | moved {scene : Scene} {actor : Actor} {next : Run}
      (turn : scene.run.turn actor = some (.moved next)) :
      Scene.Step scene (.moved actor) { scene with run := next }
  | exchange {scene : Scene} {actor : Actor} {request : Request}
      {resume : Reply request.Answer → Run} {reply : Reply request.Answer} {files : Files}
      (turn : scene.run.turn actor = some (.asked request resume))
      (reacts : Reacts scene.files request reply files) :
      Scene.Step scene (.exchange actor request reply) ⟨resume reply, files⟩

/-- What a sequence of turns can lead to. -/
inductive Scene.Trace : Scene → List Label → Scene → Prop where
  | nil (scene : Scene) : Scene.Trace scene [] scene
  | cons {first next last : Scene} {label : Label} {labels : List Label} :
      Scene.Step first label next → Scene.Trace next labels last →
      Scene.Trace first (label :: labels) last

/-- What one turn of a task can lead to in a pool of any tasks. -/
inductive Pool.Step {σ ρ : Type} [Task σ ρ] : Pool σ → Nat → Pool σ → Prop where
  | moved {pool next : Pool σ} {index : Nat} (turn : pool.turn index = some (.moved next)) :
      Pool.Step pool index next
  | exchange {pool : Pool σ} {index : Nat} {request : Request}
      {resume : Reply request.Answer → Pool σ} (reply : Reply request.Answer)
      (turn : pool.turn index = some (.asked request resume)) :
      Pool.Step pool index (resume reply)

/-- The pools that turns of tasks can lead to. -/
inductive Pool.Reaches {σ ρ : Type} [Task σ ρ] : Pool σ → Pool σ → Prop where
  | refl (pool : Pool σ) : Pool.Reaches pool pool
  | tail {first middle last : Pool σ} {index : Nat} :
      Pool.Reaches first middle → Pool.Step middle index last → Pool.Reaches first last

end FunctionBundler
