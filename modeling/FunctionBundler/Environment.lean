/-
Module: FunctionBundler.Environment
Purpose: Build environments: where an executable's libraries are asked for.
Trusted boundary: none
Main exports:
  Environment, Environment.perform, Environment.drop, Environment.select
-/
import FunctionBundler.Arch
import FunctionBundler.Environment.Container
import FunctionBundler.Environment.Operation
import FunctionBundler.Settings

namespace FunctionBundler

/-!
An environment is this machine, a sysroot of another architecture, or a container.
On this machine the tools are run as they are; for another architecture a helper
lists the libraries in the sysroot; in a container the tools run on the paths that
the project has there.  What an operation wants from its surroundings are queries,
so that it can be run against any tools and any container engine.
-/

/-- A build environment. -/
inductive Environment where
  | native (packages : Option PackageTool)
  | cross (arch : Arch) (sysroot : Path) (helper : String)
  | container (container : Container)
deriving DecidableEq

namespace Environment

/-- The environment for another architecture; its helper has a name by convention. -/
def forArch (arch : Arch) (sysroot : Path) (helper : Option String) : Environment :=
  .cross arch sysroot (helper.getD s!"{arch.triple}-ldd")

/-- The short name of a kind of environment. -/
def kind : Environment → String
  | .native _ => "native"
  | .cross .. => "cross"
  | .container _ => "container"

/-- The directory that library paths are relative to, when they do not name files of this
machine. -/
def libraryRoot : Environment → Option Path
  | .native _ => none
  | .cross _ sysroot _ => some sysroot
  | .container inner => some inner.sysroot

/-! ### On this machine -/

/-- Strip an executable. -/
def stripHere (executable : Path) : Work (Except Failure Unit) := do
  let printed ← ask (.run "strip" [executable.text])
  return printed.map fun _ => ()

/-- The libraries that an executable loads. -/
def dependenciesHere (executable : Path) : Work (Except Failure LibrarySet) := do
  let printed ← ask (.run "ldd" [executable.text])
  return printed.map Listing.libraries

/-- The members of a list that exist. -/
def filterPresent : List Path → Work (List Path)
  | [] => return []
  | path :: rest => do
    let present ← ask (.present path)
    let others ← filterPresent rest
    return if present then path :: others else others

/-- The existing libraries of the C library's package. -/
def baseHere : Option PackageTool → Work (Except Failure LibrarySet)
  | none =>
    return .error (.command "libc query"
      "no supported package manager (dpkg-query, rpm, apk) found on PATH")
  | some tool => do
    match ← ask (.run tool.query.1 tool.query.2) with
    | .error failure => return .error failure
    | .ok printed =>
      let paths ← filterPresent (tool.contents printed)
      return .ok (.ofList (paths.map .ofPath))

/-! ### For another architecture -/

/-- The libraries that an executable loads, by the helper. -/
def dependenciesBy (helper : String) (sysroot executable : Path) :
    Work (Except Failure LibrarySet) := do
  let printed ← ask (.run helper ["--root", sysroot.text, executable.text])
  return printed.map Listing.libraries

/-! ### All environments -/

/-- An answer together with the environment as it was. -/
def unchanged (environment : Environment) {α : Type} (work : Work α) : Work (Environment × α) := do
  return (environment, ← work)

/-- Perform an operation: the environment after it, and what it gives. -/
def perform (environment : Environment) : (operation : Operation) →
    Work (Environment × operation.Answer)
  | .start =>
    match environment with
    | .container inner => do
      let (inner, answer) ← inner.launch
      return (.container inner, answer)
    | _ => return (environment, .ok ())
  | .stop =>
    match environment with
    | .container inner => do
      let (inner, answer) ← inner.discard
      return (.container inner, answer)
    | _ => return (environment, .ok ())
  | .strip executable =>
    environment.unchanged <|
      match environment with
      | .native _ => stripHere executable
      | .cross .. => return .ok ()
      | .container inner => inner.strip executable
  | .dependencies executable =>
    environment.unchanged <|
      match environment with
      | .native _ => dependenciesHere executable
      | .cross _ sysroot helper => dependenciesBy helper sysroot executable
      | .container inner => inner.dependencies executable
  | .baseLibraries =>
    environment.unchanged <|
      match environment with
      | .native packages => baseHere packages
      | .cross arch _ _ => return .ok (.ofList [.ofPath ⟨arch.linker⟩])
      | .container inner => inner.baseLibraries

/-- Clear an environment away at the end: a container that is still held is removed, if there is
still something that can wait for it. -/
def drop (environment : Environment) (waiting : Bool) : Work Unit :=
  match environment with
  | .container inner =>
    match inner.held, waiting with
    | some identifier, true => do
      let _ ← ask (.remove identifier)
      return ()
    | _, _ => return ()
  | _ => return ()

/-! ### Which environment a run uses -/

/-- The socket of the container engine: as an environment variable says, or where it usually is. -/
def engineSocket (vars : Settings.Variables) : Path :=
  match (vars "DOCKER_HOST").map String.toList with
  | some ('u' :: 'n' :: 'i' :: 'x' :: ':' :: '/' :: '/' :: path) => ⟨String.ofList path⟩
  | _ => ⟨"/var/run/docker.sock"⟩

/-- The first package manager that is installed. -/
def findPackages : List PackageTool → Work (Option PackageTool)
  | [] => return none
  | tool :: rest => do
    if ← ask (.installed tool.query.1) then return some tool else findPackages rest

/-- The environment for settings: a container if an image is given, a cross environment for another
architecture than the machine's own, and this machine otherwise. -/
def select (host : Arch) (settings : Settings) (socket : Path) :
    Work (Except Failure Environment) := do
  match settings.image with
  | some image =>
    if ← ask (.present socket) then
      return .ok (.container
        { image
          project := settings.projectDirectory
          sysroot := settings.sysroot.getD ⟨""⟩
          held := none })
    else
      return .error (.command "docker connect" s!"Socket not found: {socket.text}")
  | none =>
    if settings.arch = host then
      return .ok (.native (← findPackages PackageTool.all))
    else
      return .ok (forArch settings.arch (settings.sysroot.getD ⟨""⟩) settings.crossHelper)

end Environment

end FunctionBundler
