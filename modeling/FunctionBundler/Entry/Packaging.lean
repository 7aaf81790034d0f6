/-
Module: FunctionBundler.Entry.Packaging
Purpose: Packaging one entry point: from its metadata to the archive on disk.
Trusted boundary: none
Main exports:
  Build, Packaged, Packing, Build.executable, Build.package
-/
import FunctionBundler.Closure
import FunctionBundler.Manifest
import FunctionBundler.Settings
import FunctionBundler.Task

namespace FunctionBundler

/-!
Packaging goes through its stages in a fixed order, and the first that fails
decides: the metadata, the executable, stripping if it is asked for, the libraries,
the archive, and writing it beside the executable.  Nothing is written before the
last stage.
-/

/-- What the entry points of a run have in common: the settings, where the environment's libraries
are found, how functions are reconciled, if they are, and what archives are written by. -/
structure Build where
  settings : Settings
  root : Option Path
  reconciler : Option DeployOptions
  writer : Zip.Writer

/-- A packaged entry point: its executable, the archive that was written, and its parameters. -/
structure Packaged where
  executable : Path
  archive : Archive
  parameters : Parameters
deriving DecidableEq

/-- A computation of a task that may fail. -/
abbrev Packing := ExceptT Failure Talk

namespace Packing

/-- Ask something. -/
def ask (request : Request) : Packing request.Answer :=
  ExceptT.lift (Talk.ask request)

/-- Ask the build environment. -/
def perform (operation : Operation) : Packing operation.Result :=
  ExceptT.mk (Talk.ask (.environment operation))

/-- Fail or go on, as a result says. -/
def require {ε α : Type} (blame : ε → Failure) : Except ε α → Packing α
  | .ok result => pure result
  | .error fault => throw (blame fault)

end Packing

/-- Whether something is an executable that can be packaged. -/
def checkExecutable (executable : Path) : Except FileError FileStatus → Except Failure Unit
  | .error fault => .error (.invalidExecutable executable fault.message)
  | .ok status =>
    if status.isRegular ∧ status.size ≠ 0 then .ok ()
    else .error (.invalidExecutable executable "not a non-empty regular file")

namespace Build

/-- Where the executable of an entry point lies. -/
def executable (build : Build) (entry : EntryPoint) : Path :=
  build.settings.buildDirectory.join ⟨entry.fileName⟩

/-- The closure of an executable, with the C library if the settings ask for it. -/
def closure (build : Build) (executable : Path) : Packing Closure :=
  ExceptT.mk <| (Closure.resolve executable build.settings.withLibc).answerWith fun operation =>
    Talk.ask (.environment operation)

/-- The archive of an executable and its libraries. -/
def assemble (build : Build) (executable : Path) (closure : Closure) : Packing Archive :=
  ExceptT.mk <| Archive.assemble build.writer (fun path => Talk.ask (.access (.read path)))
    executable closure.libraries build.root build.settings.withLibc

/-- Package an entry point. -/
def package (build : Build) (entry : EntryPoint) : Packing Packaged := do
  let parameters ← Packing.require .metadata entry.parameters
  let executable := build.executable entry
  let status ← Packing.ask (.access (.inspect executable))
  Packing.require id (checkExecutable executable status)
  if build.settings.strip then
    Packing.perform (.strip executable)
  let closure ← build.closure executable
  let archive ← build.assemble executable closure
  let written ← Packing.ask (.access (.write (Archive.pathFor executable) archive.bytes))
  Packing.require .io written
  return { executable, archive, parameters }

end Build

end FunctionBundler
