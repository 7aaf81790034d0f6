/-
Module: FunctionBundler.CommandLine
Purpose: The program: from its arguments to a prepared run, and from a report to an exit status.
Trusted boundary: none
Main exports:
  Fatal, Pool.capacity, Prepared, CommandLine.Query, CommandLine.prepare, CommandLine.conclude,
  CommandLine.status, Aside.lines, Aside.status
-/
import FunctionBundler.CommandLine.Arguments
import FunctionBundler.CommandLine.Console
import FunctionBundler.Environment
import FunctionBundler.Manifest.File

namespace FunctionBundler

/-!
Before a run, the settings are resolved, the manifest is loaded, and the build
environment is selected; a failure of one of these ends the program, as does an
environment that does not start.  So does a deployment that asks for more calls at
once than can be counted, with a status of its own.  The exit status tells whether
the program came to its end and packaged every entry point; how deployments ended
does not change it.
-/

/-- What ends the program before its end. -/
inductive Fatal where
  | configuration (fault : Settings.Fault)
  | manifest (path : Path) (fault : Manifest.LoadFault)
  | engine (failure : Failure)
  | uncountable
  | start (failure : Failure)
deriving DecidableEq

/-- The greatest number of calls under way that can be counted. -/
def Pool.capacity : Nat := Nat.pow 2 61 - 1

namespace Fatal

/-- What could not be done. -/
def message : Fatal → String
  | .configuration _ => "Invalid configuration"
  | .manifest path _ => s!"Failed to load manifest {path.text}"
  | .engine _ => "Failed to connect to the container engine"
  | .uncountable => "Failed to set up the deployment"
  | .start _ => "Build environment failed to start"

/-- Why. -/
def cause : Fatal → String
  | .configuration fault => fault.message
  | .manifest _ fault => fault.message
  | .engine failure | .start failure => failure.message
  | .uncountable => s!"more than {Pool.capacity} calls cannot be under way at once"

/-- What is shown. -/
def lines (fatal : Fatal) : List ConsoleLine :=
  ["Error: " ++ fatal.message, "", "Caused by:", "    " ++ fatal.cause].map .complaint

end Fatal

/-- All that a run needs. -/
structure Prepared where
  settings : Settings
  manifest : Manifest
  environment : Environment

namespace Prepared

/-- What the entry points of the run have in common. -/
def build (prepared : Prepared) : Build :=
  { settings := prepared.settings
    root := prepared.environment.libraryRoot
    reconciler := prepared.settings.deploy.map fun deploy => deploy.options prepared.settings.arch
    writer := .standard }

/-- How many calls to the platform may be under way at once. -/
def permits (prepared : Prepared) : Nat :=
  (prepared.settings.deploy.map DeploySettings.maxInflight).getD 1

/-- The run. -/
def run (prepared : Prepared) : Run :=
  .start prepared.build prepared.permits prepared.manifest.entries

/-- The line that introduces the run. -/
def introduction (prepared : Prepared) : ConsoleLine :=
  let count := prepared.manifest.entries.length
  let kind := prepared.environment.kind
  .output s!"  {count} entry points, {kind} environment, {prepared.settings.arch.name}"

end Prepared

namespace CommandLine

/-- The name and version of the program. -/
def versionText : String := "fnpack-cli 0.1.0"

/-- What preparing a run wants to know. -/
inductive Query where
  | access (access : Access)
  | environment (query : Environment.Query)

/-- What is answered to a query. -/
abbrev Query.Answer : Query → Type
  | .access wanted => wanted.Answer
  | .environment query => query.Answer

/-- A computation that asks these queries. -/
abbrev Inquiry := Program Query Query.Answer

/-- One that may fail. -/
abbrev Preparation := ExceptT Fatal Inquiry

/-- Ask one query. -/
def ask (query : Query) : Inquiry query.Answer :=
  Program.query query

/-- Ask the file system. -/
def askFiles (wanted : Access) : Inquiry wanted.Answer :=
  ask (.access wanted)

/-- Ask for what an environment wants to know. -/
def askEnvironment (query : Environment.Query) : Inquiry query.Answer :=
  ask (.environment query)

/-- The profile file, if there is one. -/
def profileFile (path : Option Path) : Inquiry (Option ProfileFile) :=
  match path with
  | none => return none
  | some path => do
    if ← askFiles (.present path) then
      let content ← askFiles (.read path)
      return some ⟨path, content.bind Files.textOf⟩
    else
      return none

/-- Blame a fault. -/
def blame {ε α : Type} (fatal : ε → Fatal) : Except ε α → Preparation α
  | .ok result => pure result
  | .error fault => throw (fatal fault)

/-- Prepare a run on a machine of an architecture. -/
def prepare (host : Arch) (overrides : Overrides) (vars : Settings.Variables) (working : Path)
    (userHome : Option Path) : Preparation Prepared := do
  let file ← ExceptT.lift (profileFile (Settings.profilePath? vars userHome))
  let settings ← blame .configuration (Settings.resolve host overrides vars working file)
  let content ← ExceptT.lift (askFiles (.read settings.manifestPath))
  let manifest ← blame (.manifest settings.manifestPath)
    (Manifest.load settings.manifestPath content)
  let selected ← ExceptT.lift <|
    (Environment.select host settings (Environment.engineSocket vars)).answerWith askEnvironment
  let environment ← blame .engine selected
  let prepared : Prepared := { settings, manifest, environment }
  if Pool.capacity < prepared.permits then throw .uncountable
  return prepared

/-- What the program comes to when its run is over, given what the run reports. -/
def conclude : Option (Except Failure RunReport) → Except Fatal RunReport
  | some (.ok report) => .ok report
  | some (.error failure) => .error (.start failure)
  | none => .error (.start .notStarted)

/-- The exit status of a program that ended in this way. -/
def status : Except Fatal RunReport → Nat
  | .ok report => if report.hasFailures then 1 else 0
  | .error .uncountable => 101
  | .error _ => 1

/-- What is shown when help is asked for, or when the command line is misused. -/
def helpText : String :=
  let options := CommandOption.all.map fun (name, option) =>
    match option with
    | .switch _ => s!"  --{name}"
    | .valued _ => s!"  --{name} <VALUE>"
  "\n".intercalate ("Usage: fnpack [OPTIONS] <BINARY>" :: "" :: options)

/-- The environment variables that a run depends on. -/
def variableNames : List String :=
  ["AWS_ACCESS_KEY_ID", "AWS_DEFAULT_REGION", "AWS_REGION", "AWS_SECRET_ACCESS_KEY",
   "AWS_SESSION_TOKEN", "DOCKER_HOST", "FNPACK_BUCKET", "FNPACK_ENDPOINT_URL", "FNPACK_HOME",
   "FNPACK_PROFILE", "FNPACK_ROLE_ARN"]

/-- What is shown at the end. -/
def closing (times : Nat → Nat) (elapsed : Nat) : Except Fatal RunReport → List ConsoleLine
  | .ok report => report.summary times elapsed
  | .error fatal => fatal.lines

end CommandLine

namespace Aside

/-- What is shown instead of a run. -/
def lines : Aside → List ConsoleLine
  | .help => [.output CommandLine.helpText]
  | .version => [.output CommandLine.versionText]
  | .misuse => [.complaint CommandLine.helpText]

/-- The exit status if there is no run. -/
def status : Aside → Nat
  | .help | .version => 0
  | .misuse => 2

end Aside

end FunctionBundler
