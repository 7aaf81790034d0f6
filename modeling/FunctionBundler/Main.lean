/-
Module: FunctionBundler.Main
Purpose: The command line program: the real files, variables, clock and console around a run.
Trusted boundary: this module answers requests from the operating system and cannot be reasoned
  about
Main exports:
  main
-/
import FunctionBundler.CommandLine
import FunctionBundler.Run.Schedule

namespace FunctionBundler.CommandLine

/-!
Requests are answered one by one from the operating system.  Other programs, a
container engine and the platform are out of reach from here; whoever asks for one
of them is told so.
-/

/-- The architecture that this program is built for, and so of the machine that it runs on. -/
def host : Arch := .x86_64

/-- What programs, engines and platforms that are out of reach are reported with. -/
def outOfReach : String := "cannot be reached"

/-- The fault behind an error of the operating system. -/
def faultOf : IO.Error → FileError
  | .permissionDenied .. => .permissionDenied
  | .inappropriateType .. => .isDirectory
  | .invalidArgument .. => .nulInName
  | _ => .notFound

/-- Do something that may fail. -/
def attempt {α : Type} (action : IO α) : IO (Except FileError α) := do
  try
    return .ok (← action)
  catch fault =>
    return .error (faultOf fault)

/-- The bytes of a file. -/
def readBytes (path : Path) : IO (Except FileError Bytes) :=
  attempt do return (← IO.FS.readBinFile path.text).data.toList

/-- Whether a path leads to something. -/
def isPresent (path : Path) : IO Bool :=
  return (← attempt (IO.FS.realPath path.text)).toBool

/-- How the operating system answers an access. -/
def answerAccess : (access : Access) → IO access.Answer
  | .present path => isPresent path
  | .read path => readBytes path
  | .write path content => attempt (IO.FS.writeBinFile path.text ⟨content.toArray⟩)
  | .inspect path => do
    match ← readBytes path with
    | .ok content => return .ok ⟨true, content.length⟩
    | .error .isDirectory => return .ok ⟨false, 0⟩
    | .error fault => return .error fault

/-- How an environment's queries are answered. -/
def answerQuery : (query : Environment.Query) → IO query.Answer
  | .present path => isPresent path
  | .installed _ => return false
  | .run program _ | .execute _ program _ => return .error (.command program outOfReach)
  | .launch _ _ => return .error (.command "docker create" outOfReach)
  | .remove _ => return .error (.command "docker rm" outOfReach)

/-- How the platform answers. -/
def answerCall (call : RemoteCall) : call.Answer :=
  .error (.remote "call" (call.function?.getD ⟨""⟩) outOfReach)

/-- Write a line. -/
def display : ConsoleLine → IO Unit
  | .output text => IO.println text
  | .complaint text => IO.eprintln text

/-- The surroundings of a run whose environment is kept in a reference. -/
def surroundings (environment : IO.Ref Environment) : Surroundings IO where
  wait _ := return none
  reaction _
    | .access access => return .answered (← answerAccess access)
    | .environment operation => do
      let (next, answer) ← ((← environment.get).perform operation).answerWith answerQuery
      environment.set next
      return .answered answer
    | .announce event => return .answered (← event.lines.forM display)
    | .call call => return .answered (answerCall call)
    | .clock => return .answered (← IO.monoMsNow)
    | .sleep duration => return .answered (← IO.sleep duration.toUInt32)

/-- How many turns a run may take; more than any run needs. -/
def turns : Nat := Nat.pow 10 18

/-- Prepare a run and let it go on to its end. -/
def execute (overrides : Overrides) : IO (Except Fatal RunReport) := do
  let values ← variableNames.mapM fun name => return (name, ← IO.getEnv name)
  let vars : Settings.Variables := fun name => (values.lookup name).join
  let home := ((← IO.getEnv "HOME").filter (· ≠ "")).map Path.mk
  let working : Path := ⟨toString (← IO.currentDir)⟩
  let answer : (query : Query) → IO query.Answer
    | .access access => answerAccess access
    | .environment query => answerQuery query
  match ← (prepare host overrides vars working home).run.answerWith answer with
  | .error fatal => return .error fatal
  | .ok prepared =>
    display prepared.introduction
    let environment ← IO.mkRef prepared.environment
    let run := prepared.run
    let ended ← Schedule.run (surroundings environment) Run.turn turns (.start run run.actors)
    ((← environment.get).drop true).answerWith answerQuery
    return conclude ended.state.report?

end FunctionBundler.CommandLine

open FunctionBundler in
/-- The program. -/
def main (arguments : List String) : IO UInt32 := do
  match Invocation.ofArguments arguments with
  | .aside aside =>
    aside.lines.forM CommandLine.display
    return aside.status.toUInt32
  | .run overrides _ =>
    let begun ← IO.monoMsNow
    let result ← CommandLine.execute overrides
    let elapsed := (← IO.monoMsNow) - begun
    (CommandLine.closing (fun _ => elapsed) elapsed result).forM CommandLine.display
    return (CommandLine.status result).toUInt32
