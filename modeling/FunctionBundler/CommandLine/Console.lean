/-
Module: FunctionBundler.CommandLine.Console
Purpose: What a user sees on the console: progress, the summary, and errors.
Trusted boundary: none
Main exports:
  Size.text, ConsoleLine, Event.lines, RunReport.summary, Tally
-/
import FunctionBundler.Run

namespace FunctionBundler

/-- The names of the units above the byte. -/
def Size.units : List String := ["KiB", "MiB", "GiB"]

/-- Divide by 1024 until less than 1024² is left or the largest unit is reached: what is left, and
the unit that it has 1024 parts of. -/
def Size.scale : (units : List String) → (whole : Nat) → Nat × String
  | [], whole => (whole, "")
  | [last], whole => (whole, last)
  | unit :: larger, whole =>
    if 1024 * 1024 ≤ whole then scale larger (whole / 1024) else (whole, unit)

/-- A number of bytes for people: in bytes below 1024, and else in the largest fitting unit, cut to
one decimal. -/
def Size.text (bytes : Nat) : String :=
  if bytes < 1024 then s!"{bytes} B"
  else
    let (whole, unit) := scale units bytes
    let tenths := whole * 10 / 1024
    s!"{tenths / 10}.{tenths % 10} {unit}"

/-- A line on the console: ordinary output, or on the channel for errors and warnings. -/
inductive ConsoleLine where
  | output (text : String)
  | complaint (text : String)
deriving Repr, DecidableEq

/-- What is shown for an event. -/
def Event.lines : Event → List ConsoleLine
  | .heading title => [.output "", .output ("  " ++ String.ofList (title.toList.map Char.toLower))]
  | .packaging entry => [.output s!"    packaging {entry}"]
  | .packaged entry archive size =>
    [.output s!"    packaged {entry} -> {archive.text} ({Size.text size})"]
  | .deploying entry function => [.output s!"    deploying {entry} as {function.text}"]
  | .deployed entry function detail =>
    [.output s!"    deployed {entry} ({function.text}: {detail})"]
  | .failed entry reason => [.complaint s!"    error: {entry}: {reason}"]
  | .warning message => [.complaint s!"  warning: {message}"]

/-- A time in milliseconds, shown in seconds with one decimal. -/
def secondsText (milliseconds : Nat) : String :=
  let tenths := (milliseconds + 50) / 100
  s!"{tenths / 10}.{tenths % 10}s"

/-- How many entry points ended in each way. -/
structure Tally where
  packaged : Nat
  deployed : Nat
  deployFailed : Nat
  failed : Nat
deriving Repr, DecidableEq

namespace Tally

/-- The tally of outcomes. -/
def ofOutcomes (outcomes : List Outcome) : Tally :=
  outcomes.foldr (fun outcome tally =>
    match outcome with
    | .packaged _ _ => { tally with packaged := tally.packaged + 1 }
    | .deployed _ _ => { tally with deployed := tally.deployed + 1 }
    | .deployFailed _ _ => { tally with deployFailed := tally.deployFailed + 1 }
    | .failed _ | .aborted _ => { tally with failed := tally.failed + 1 }) ⟨0, 0, 0, 0⟩

/-- The text of a tally. -/
def text (tally : Tally) : String :=
  s!"{tally.packaged} packaged, {tally.deployed} deployed, {tally.deployFailed} deploy failed, " ++
    s!"{tally.failed} failed"

end Tally

/-- A failure with all that lies behind it. -/
def Failure.chain (failure : Failure) : String :=
  ": ".intercalate (failure.message :: failure.causes)

/-- What the summary shows for an entry point that took some milliseconds. -/
def Outcome.summary (entry : String) (time : Nat) : Outcome → String
  | .packaged _ _ => s!"    packaged {entry} ({secondsText time})"
  | .deployed function actions =>
    s!"    deployed {entry} as {function.text} ({actions.length} actions, {secondsText time})"
  | .deployFailed function failure =>
    s!"    deploy failed {entry} as {function.text}: {failure.message}"
  | .failed failure => s!"    failed {entry}: {failure.chain}"
  | .aborted cause => s!"    failed {entry}: {abortedMessage cause}"

/-- The summary of a run, given how long each entry point and all of it took. -/
def RunReport.summary (report : RunReport) (times : Nat → Nat) (elapsed : Nat) :
    List ConsoleLine :=
  let tally := Tally.ofOutcomes (report.results.map (·.2))
  let shown := report.results.zipIdx.map fun ((entry, outcome), index) =>
    outcome.summary entry.fileName (times index)
  let total := s!"  {report.results.length} entry points ({tally.text}) in {secondsText elapsed}"
  (["", "  summary"] ++ shown ++ ["", total]).map .output

end FunctionBundler
