/-
Module: FunctionBundler.Deploy.Remote
Purpose: Calls to the function platform and the object store, and a platform that honours them.
Trusted boundary: none
Main exports:
  Payload, CreateRequest, ConfigChange, RemoteCall, RemoteCall.Answer, Platform, Platform.perform
-/
import FunctionBundler.Arch
import FunctionBundler.Deploy.Plan
import FunctionBundler.Failure

namespace FunctionBundler

/-!
A function's code travels with the call, or lies in the object store and is
referred to.  A configuration change leaves alone what it does not mention.
`Platform` is a platform that stores what it is told, and at once: against it one
can ask what a deployment leaves behind.
-/

/-- How a function's code reaches the platform. -/
inductive Payload where
  | inline (bytes : Bytes)
  | stored (bucket key : String)
deriving DecidableEq

/-- A short text for a payload. -/
def Payload.summary : Payload → String
  | .inline bytes => s!"Inline({bytes.length} bytes)"
  | .stored bucket key => s!"ObjectStore(s3://{bucket}/{key})"

/-- What a new function is created with. -/
structure CreateRequest where
  function : FunctionName
  runtime : String
  role : String
  code : Payload
  timeout : Nat
  memory : Nat
  ephemeralStorage : Nat
  arch : Arch
deriving DecidableEq

/-- A change to a function's configuration. -/
structure ConfigChange where
  timeout : Option Nat
  memory : Option Nat
  role : Option String
deriving Repr, DecidableEq

/-- A call to the platform, or an upload to the object store. -/
inductive RemoteCall where
  | lookUp (function : FunctionName)
  | create (request : CreateRequest)
  | updateCode (function : FunctionName) (code : Payload)
  | updateConfig (function : FunctionName) (change : ConfigChange)
  | isStable (function : FunctionName)
  | upload (bucket key : String) (content : Bytes)
deriving DecidableEq

namespace RemoteCall

/-- What a call gives when it succeeds. -/
abbrev Result : RemoteCall → Type
  | .lookUp _ => Option RemoteFunction
  | .isStable _ => Bool
  | .create _ | .updateCode _ _ | .updateConfig _ _ | .upload _ _ _ => Unit

/-- What is answered to a call. -/
abbrev Answer (call : RemoteCall) : Type :=
  Except DeployFailure call.Result

/-- Whether a call changes a function. -/
def isMutation : RemoteCall → Bool
  | .create _ | .updateCode _ _ | .updateConfig _ _ => true
  | .lookUp _ | .isStable _ | .upload _ _ _ => false

/-- The function that a call names. -/
def function? : RemoteCall → Option FunctionName
  | .lookUp function | .updateCode function _ | .updateConfig function _ | .isStable function =>
    some function
  | .create request => some request.function
  | .upload _ _ _ => none

end RemoteCall

/-- The state of a platform that honours its calls: its functions, and the objects in the store. -/
structure Platform where
  functions : FunctionName → Option RemoteFunction
  objects : String → String → Option Bytes

namespace Platform

/-- A platform on which every function is in the given state. -/
def uniform (remote : Option RemoteFunction) : Platform :=
  ⟨fun _ => remote, fun _ _ => none⟩

/-- The state of a function of which nothing was ever said. -/
def blank : RemoteFunction := ⟨"", "", none, none⟩

/-- The digest text of a payload. -/
def codeDigest (platform : Platform) : Payload → String
  | .inline bytes => (Sha256.digest bytes).base64
  | .stored bucket key =>
    match platform.objects bucket key with
    | some bytes => (Sha256.digest bytes).base64
    | none => ""

/-- The platform after a function has changed. -/
def store (platform : Platform) (function : FunctionName) (remote : RemoteFunction) : Platform :=
  { platform with
    functions := fun other => if other = function then some remote else platform.functions other }

/-- A function after its configuration has changed. -/
def applyChange (change : ConfigChange) (remote : RemoteFunction) : RemoteFunction :=
  { remote with
    role := change.role.getD remote.role
    memory := change.memory <|> remote.memory
    timeout := change.timeout <|> remote.timeout }

/-- Perform a call: what it gives, and the platform after it. -/
def perform (platform : Platform) : (call : RemoteCall) → call.Result × Platform
  | .lookUp function => (platform.functions function, platform)
  | .create request =>
    ((), platform.store request.function
      { codeDigest := platform.codeDigest request.code
        role := request.role
        memory := some request.memory
        timeout := some request.timeout })
  | .updateCode function code =>
    ((), platform.store function
      { (platform.functions function).getD blank with codeDigest := platform.codeDigest code })
  | .updateConfig function change =>
    ((), platform.store function (applyChange change ((platform.functions function).getD blank)))
  | .isStable _ => (true, platform)
  | .upload bucket key content =>
    ((), { platform with
      objects := fun otherBucket otherKey =>
        if otherBucket = bucket ∧ otherKey = key then some content
        else platform.objects otherBucket otherKey })

end Platform

end FunctionBundler
