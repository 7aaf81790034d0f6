/-
Module: FunctionBundler.Arch
Purpose: The processor architectures that functions are built for.
Trusted boundary: none
Main exports:
  Arch, Arch.ofText?, Arch.name, Arch.triple, Arch.linker
-/

namespace FunctionBundler

/-!
Two architectures are supported.  A user may spell them in several ways and in
any letter case; everything the program writes uses the one name.
-/

/-- A processor architecture. -/
inductive Arch where
  | x86_64
  | arm64
deriving Repr, DecidableEq

namespace Arch

/-- The architecture that functions have where nothing else is said. -/
instance : Inhabited Arch := ⟨.x86_64⟩

/-- The name of an architecture, also in manifests and requests. -/
def name : Arch → String
  | .x86_64 => "x86_64"
  | .arm64 => "arm64"

/-- The architecture of a name, spelled exactly. -/
def ofName? : String → Option Arch
  | "x86_64" => some .x86_64
  | "arm64" => some .arm64
  | _ => none

/-- The architecture that a user's spelling means.  No letter outside ASCII has a lowercase form
that occurs in these spellings, so lowering the ASCII letters is enough. -/
def ofText? (text : String) : Option Arch :=
  match String.ofList (text.toList.map Char.toLower) with
  | "x86_64" | "amd64" | "x86-64" => some .x86_64
  | "arm64" | "aarch64" => some .arm64
  | _ => none

/-- The message for a spelling that means no architecture. -/
def unknownMessage (text : String) : String :=
  s!"Unknown architecture: {text}"

/-- The triple that names the tools of an architecture. -/
def triple : Arch → String
  | .x86_64 => "x86_64-linux-gnu"
  | .arm64 => "aarch64-linux-gnu"

/-- The path of the system's loader of an architecture. -/
def linker : Arch → String
  | .x86_64 => "/lib64/ld-linux-x86-64.so.2"
  | .arm64 => "/lib/ld-linux-aarch64.so.1"

@[simp] theorem ofName?_name (arch : Arch) : ofName? arch.name = some arch := by
  cases arch <;> rfl

end Arch

end FunctionBundler
