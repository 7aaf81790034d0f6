/-
Module: FunctionBundler.Environment.Operation
Purpose: What a build environment is asked for.
Trusted boundary: none
Main exports:
  Operation, Operation.Result, Operation.Answer
-/
import FunctionBundler.Failure

namespace FunctionBundler

/-- What a build environment can be asked to do: be prepared and cleared away, strip an executable,
list the libraries that an executable loads, or list those of its C library. -/
inductive Operation where
  | start
  | stop
  | strip (executable : Path)
  | dependencies (executable : Path)
  | baseLibraries
deriving DecidableEq

namespace Operation

/-- What an operation gives when it succeeds. -/
abbrev Result : Operation → Type
  | .start | .stop | .strip _ => Unit
  | .dependencies _ | .baseLibraries => LibrarySet

/-- What is answered to an operation. -/
abbrev Answer (operation : Operation) : Type :=
  Except Failure operation.Result

end Operation

end FunctionBundler
