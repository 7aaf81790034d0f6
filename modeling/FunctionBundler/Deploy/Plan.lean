/-
Module: FunctionBundler.Deploy.Plan
Purpose: Which changes bring a deployed function in line with a build.
Trusted boundary: none
Main exports:
  RemoteFunction, Digest.matches, DeployAction, DeployAction.shipsCode, plan, objectKey
-/
import FunctionBundler.Parameters
import FunctionBundler.Text.Blank

namespace FunctionBundler

/-!
The platform tells, for a deployed function, the digest of its code, its role and
its configuration.  What differs from the build is changed, each part by a call
of its own, in a fixed order; a function that does not exist is created.
-/

/-- What the platform tells about a deployed function. -/
structure RemoteFunction where
  codeDigest : String
  role : String
  memory : Option Nat
  timeout : Option Nat
deriving Repr, DecidableEq, Inhabited

/-- Whether a reported text is a digest in base64, blanks around it aside. -/
def Digest.matches (digest : Digest) (reported : String) : Bool :=
  match Base64.decode (String.ofList (Text.trimBlank reported.toList)) with
  | .ok bytes => bytes = digest.bytes
  | .error _ => false

/-- A change to a deployed function. -/
inductive DeployAction where
  | create
  | updateCode
  | updateRole
  | updateConfig
deriving Repr, DecidableEq

namespace DeployAction

/-- The name of an action in reports. -/
def name : DeployAction → String
  | .create => "create"
  | .updateCode => "update-code"
  | .updateRole => "update-role"
  | .updateConfig => "update-config"

/-- Whether an action ships the archive. -/
def shipsCode : DeployAction → Bool
  | .create | .updateCode => true
  | .updateRole | .updateConfig => false

end DeployAction

/-- The actions that bring a function in line with an archive, a role and parameters. -/
def plan (remote : Option RemoteFunction) (digest : Digest) (role : String)
    (parameters : Parameters) : List DeployAction :=
  match remote with
  | none => [.create]
  | some remote =>
    (if digest.matches remote.codeDigest then [] else [.updateCode]) ++
      (if remote.role = role then [] else [.updateRole]) ++
      (if remote.timeout = some parameters.timeout ∧ remote.memory = some parameters.memory then []
        else [.updateConfig])

/-- The key under which an archive is kept in the object store. -/
def objectKey (function : FunctionName) (digest : Digest) : String :=
  s!"{function.text}/{digest.hex}.zip"

end FunctionBundler
