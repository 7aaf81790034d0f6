/-
Module: FunctionBundler.Deploy.Options
Purpose: What deployments of one run have in common.
Trusted boundary: none
Main exports:
  DeployOptions, DeployOptions.standard
-/
import FunctionBundler.Arch

namespace FunctionBundler

/-- How functions are created, when archives are kept in the object store, and how long to wait for
a change to take effect; sizes in bytes, times in milliseconds. -/
structure DeployOptions where
  runtime : String
  arch : Arch
  bucket : Option String
  inlineLimit : Nat
  pollInterval : Nat
  maxWait : Nat
  dryRun : Bool
deriving Repr, DecidableEq

namespace DeployOptions

/-- The runtime of a function that names no other. -/
def standardRuntime : String := "provided.al2"

/-- The largest archive that is sent with the call itself. -/
def standardInlineLimit : Nat := 50 * 1024 * 1024

/-- The time between two looks at a function that is changing. -/
def standardPollInterval : Nat := 1000

/-- The longest time to wait for a function, in seconds. -/
def standardMaxWait : Nat := 300

/-- The options of a deployment that sets none. -/
def standard : DeployOptions :=
  { runtime := standardRuntime
    arch := default
    bucket := none
    inlineLimit := standardInlineLimit
    pollInterval := standardPollInterval
    maxWait := standardMaxWait * 1000
    dryRun := false }

end DeployOptions

end FunctionBundler
