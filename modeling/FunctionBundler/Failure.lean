/-
Module: FunctionBundler.Failure
Purpose: Why packaging an entry point, or deploying it, fails.
Trusted boundary: none
Main exports:
  ArchiveFault, Failure, Failure.message, Failure.causes, DeployFailure, DeployFailure.message
-/
import FunctionBundler.Files
import FunctionBundler.Library
import FunctionBundler.Parameters

namespace FunctionBundler

/-!
A failure is confined to one entry point.  Packaging failures name the file or
the tool at fault; some of them have a cause of their own, which is shown after
them where the whole chain is asked for.
-/

/-- Why an archive cannot be written: a content is not taken, or a record of the archive, and what
lies behind that. -/
inductive ArchiveFault where
  | content (message : String)
  | record (message : String) (causes : List String)
deriving Repr, DecidableEq

/-- Why packaging fails. -/
inductive Failure where
  | metadata (fault : Parameters.Fault)
  | ambiguousLoader (candidates : List LibraryPath)
  | missingLibrary (library : LibraryPath) (source : Path) (fault : FileError)
  | invalidExecutable (path : Path) (reason : String)
  | command (program message : String)
  | outsideProject (path project : Path)
  | notStarted
  | io (fault : FileError)
  | archive (fault : ArchiveFault)
deriving DecidableEq

/-- The wording of a packaging failure. -/
def Failure.message : Failure → String
  | .metadata fault => s!"malformed metadata: {fault.message}"
  | .ambiguousLoader candidates =>
    let listed := ", ".intercalate (candidates.map (·.text))
    s!"expected exactly one ld-* loader in dependency closure, found {candidates.length}: " ++
      s!"[{listed}]"
  | .missingLibrary library source _ => s!"library {library.text} not found at {source.text}"
  | .invalidExecutable path reason => s!"invalid executable {path.text}: {reason}"
  | .command program message => s!"{program} failed: {message}"
  | .outsideProject path project =>
    s!"{path.text} is outside the project directory {project.text}"
  | .notStarted => "build environment has not been started"
  | .io fault => s!"IO error: {fault.message}"
  | .archive (.content message) => s!"IO error: {message}"
  | .archive (.record message _) => s!"archive error: {message}"

/-- The causes behind a packaging failure, outermost first. -/
def Failure.causes : Failure → List String
  | .metadata fault => [fault.message]
  | .missingLibrary _ _ fault => [fault.message]
  | .io fault => [fault.message]
  | .archive (.content message) => [message]
  | .archive (.record message causes) => message :: causes
  | _ => []

/-- Why a deployment fails. -/
inductive DeployFailure where
  | timedOut (function : FunctionName) (waited : Nat)
  | remote (operation : String) (function : FunctionName) (message : String)
  | missingBucket (function : FunctionName) (size : Nat)
deriving Repr, DecidableEq

/-- The wording of a deployment failure; a time is shown in whole seconds. -/
def DeployFailure.message : DeployFailure → String
  | .timedOut function waited => s!"{function.text} did not stabilize within {waited / 1000}s"
  | .remote operation function message => s!"{operation} failed for {function.text}: {message}"
  | .missingBucket function size =>
    s!"archive for {function.text} is {size} bytes and must be offloaded, " ++
      "but no bucket is configured"

end FunctionBundler
