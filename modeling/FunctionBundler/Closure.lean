/-
Module: FunctionBundler.Closure
Purpose: The libraries that one executable needs, with its loader.
Trusted boundary: none
Main exports:
  Closure, Closure.merge, Closure.ofLibraries, Closure.resolve
-/
import FunctionBundler.Archive
import FunctionBundler.Environment.Operation
import FunctionBundler.Program

namespace FunctionBundler

/-!
An executable needs the libraries that it loads, and those of the C library if
that is bundled.  A library of the C library's package is left out when the
executable already loads one of that file name: package listings often have one
library in several directories, and the linker's choice is the one to keep.
-/

/-- The libraries that an executable needs; exactly one of them is a loader. -/
structure Closure where
  libraries : LibrarySet
  loader : LibraryPath
deriving DecidableEq

namespace Closure

/-- Libraries that are loaded, together with those of the C library whose file names are new. -/
def merge (loaded base : LibrarySet) : LibrarySet :=
  let names := loaded.paths.map LibraryPath.fileName
  loaded.insertAll (base.paths.filter fun library => library.fileName ∉ names)

/-- The closure that libraries form, if exactly one of them is a loader. -/
def ofLibraries (libraries : LibrarySet) : Except Failure Closure :=
  (Archive.soleLoader libraries).map fun loader => ⟨libraries, loader⟩

/-- Find the closure of an executable, with the C library or without. -/
def resolve (executable : Path) (withBase : Bool) :
    Program Operation Operation.Answer (Except Failure Closure) := do
  match ← Program.query (.dependencies executable) with
  | .error failure => return .error failure
  | .ok loaded =>
    if withBase then
      match ← Program.query .baseLibraries with
      | .error failure => return .error failure
      | .ok base => return ofLibraries (merge loaded base)
    else
      return ofLibraries loaded

end Closure

end FunctionBundler
