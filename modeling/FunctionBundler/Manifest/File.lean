/-
Module: FunctionBundler.Manifest.File
Purpose: Loading the manifest of a build from its file.
Trusted boundary: none
Main exports:
  Manifest.LoadFault, Manifest.LoadFault.message, Manifest.load
-/
import FunctionBundler.Files
import FunctionBundler.Manifest

namespace FunctionBundler.Manifest

/-- Why a manifest cannot be loaded. -/
inductive LoadFault where
  | unreadable (path : Path) (fault : FileError)
  | malformed (fault : JsonText.Fault)
deriving DecidableEq

/-- The wording of a fault. -/
def LoadFault.message : LoadFault → String
  | .unreadable path fault => s!"IO error reading {path.text}: {fault.message}"
  | .malformed _ => "Parse error"

/-- The manifest in a file, given what reading the file gave. -/
def load (path : Path) (content : Except FileError Bytes) : Except LoadFault Manifest :=
  match content.bind Files.textOf with
  | .error fault => .error (.unreadable path fault)
  | .ok text =>
    match read text with
    | .error fault => .error (.malformed fault)
    | .ok manifest => .ok manifest

end FunctionBundler.Manifest
