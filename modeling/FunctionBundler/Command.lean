/-
Module: FunctionBundler.Command
Purpose: What a command's end means: its output as text, or a failure.
Trusted boundary: none
Main exports:
  CommandEnd, CommandEnd.output
-/
import FunctionBundler.Failure
import FunctionBundler.Text.Repair

namespace FunctionBundler

/-- How a command ended: its program was not found or could not be started, or it exited with a
status or was killed by a signal after it had printed something. -/
inductive CommandEnd where
  | notFound
  | unstartable (reason : String)
  | exited (status : Nat) (printed complaint : Bytes)
  | killed (printed complaint : Bytes)
deriving DecidableEq

namespace CommandEnd

/-- The failure of a command that started but did not exit with status zero. -/
def unsuccessful (program status : String) (complaint : Bytes) : Failure :=
  let reason := String.ofList (Text.trimBlank (Text.repairText complaint).toList)
  .command program s!"exit status {status}: {reason}"

/-- What a command printed, if it exited with status zero. -/
def output (program : String) : CommandEnd → Except Failure String
  | .notFound => .error (.command program "not found on PATH")
  | .unstartable reason => .error (.command program reason)
  | .exited 0 printed _ => .ok (Text.repairText printed)
  | .exited status _ complaint => .error (unsuccessful program (toString status) complaint)
  | .killed _ complaint => .error (unsuccessful program "signal" complaint)

end CommandEnd

end FunctionBundler
