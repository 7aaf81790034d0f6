/-
Module: FunctionBundler.Parameters
Purpose: The deployment parameters of an entry point, and the name it is deployed under.
Trusted boundary: none
Main exports:
  Parameters, Parameter, Parameters.ofValue, Parameters.ofBytes, Parameters.Fault,
  FunctionName, FunctionName.compute
-/
import FunctionBundler.Digest.Sha256
import FunctionBundler.Value.Codec

namespace FunctionBundler

/-!
An entry point carries a metadata blob.  Its root is a map with a text
`identifier` and three integers, of either width on the wire but no larger than
the platform accepts.  Fields are examined in a fixed order, and the first faulty
one is reported.  The name under which an entry point is deployed is a function
of its target and its parameters only, so that a later run finds the function
that an earlier run deployed.
-/

/-- The fields of a metadata map, in the order in which they are examined. -/
inductive Parameter where
  | identifier
  | memory
  | timeout
  | ephemeralStorage
deriving Repr, DecidableEq

namespace Parameter

/-- The key of a field. -/
def key : Parameter → String
  | .identifier => "identifier"
  | .memory => "memory"
  | .timeout => "timeout"
  | .ephemeralStorage => "ephemeral_storage"

/-- What a field has to be. -/
def expectation : Parameter → String
  | .identifier => "a string"
  | _ => "an integer no larger than 2147483647"

end Parameter

/-- The deployment parameters of one entry point: memory in megabytes, timeout in seconds,
temporary storage in megabytes. -/
structure Parameters where
  identifier : String
  memory : Nat
  timeout : Nat
  ephemeralStorage : Nat
deriving Repr, DecidableEq, Inhabited

namespace Parameters

/-- The largest integer that the platform's configuration accepts. -/
def largest : Nat := 2147483647

/-- Why a metadata blob, or its text, yields no parameters. -/
inductive Fault where
  | base64 (fault : Base64.Fault)
  | codec (fault : Codec.Fault)
  | notMap
  | missing (field : Parameter)
  | wrongKind (field : Parameter)
deriving Repr, DecidableEq

/-- The wording of a fault. -/
def Fault.message : Fault → String
  | .base64 fault => s!"invalid base64: {fault.message}"
  | .codec fault => fault.message
  | .notMap => "metadata root must be a map"
  | .missing field => s!"missing field \x60{field.key}\x60"
  | .wrongKind field => s!"field \x60{field.key}\x60 must be {field.expectation}"

/-- The value of a field, read by `view`. -/
def field {α : Type} (value : Value) (parameter : Parameter) (view : Value → Option α) :
    Except Fault α :=
  match value.get? parameter.key with
  | none => .error (.missing parameter)
  | some content =>
    match view content with
    | none => .error (.wrongKind parameter)
    | some result => .ok result

/-- An integer of either width that the platform accepts. -/
def platformInteger? (value : Value) : Option Nat :=
  value.asNat?.filter (· ≤ largest)

/-- The parameters that a value describes. -/
def ofValue (value : Value) : Except Fault Parameters :=
  match value with
  | .map _ => do
    let identifier ← field value .identifier Value.asText?
    let memory ← field value .memory platformInteger?
    let timeout ← field value .timeout platformInteger?
    let ephemeralStorage ← field value .ephemeralStorage platformInteger?
    return { identifier, memory, timeout, ephemeralStorage }
  | _ => .error .notMap

/-- The parameters that a metadata blob describes. -/
def ofBytes (blob : Bytes) : Except Fault Parameters :=
  match Codec.decode blob with
  | .error fault => .error (.codec fault)
  | .ok value => ofValue value

/-- The text whose digest tells functions of one target apart. -/
def fingerprint (parameters : Parameters) : String :=
  s!"{parameters.identifier}#{parameters.ephemeralStorage}#{parameters.memory}#{parameters.timeout}"

end Parameters

/-- The name of a deployed function. -/
structure FunctionName where
  text : String
deriving Repr, DecidableEq, Inhabited

namespace FunctionName

/-- How many digits of the fingerprint's digest a name keeps. -/
def digestDigits : Nat := 8

/-- The name of the function that a target's entry point with the given parameters becomes. -/
def compute (target : String) (parameters : Parameters) : FunctionName :=
  let digest := Sha256.digest (Bytes.ofText parameters.fingerprint)
  ⟨s!"{target}-{String.ofList (digest.hex.toList.take digestDigits)}"⟩

end FunctionName

end FunctionBundler
