/-
Module: FunctionBundler.Environment.Container
Purpose: A build container that has the project mounted: its paths, and what is run in it.
Trusted boundary: none
Main exports:
  Container, Container.mount, Container.pathInside, Container.launch, Container.discard,
  Container.strip, Container.dependencies, Container.baseLibraries
-/
import FunctionBundler.Environment.Query
import FunctionBundler.Library.Listing
import FunctionBundler.Library.Package

namespace FunctionBundler

/-- A build container: the image it is launched from, the project directory mounted into it, the
local copy of the image's file system, and the identifier of the running container, if one is
held. -/
structure Container where
  image : String
  project : Path
  sysroot : Path
  held : Option String
deriving DecidableEq

namespace Container

/-- Where the project directory is mounted inside the container. -/
def mount : Path := ⟨"/usr/src/project"⟩

/-- The path inside the container of a local path in the project directory. -/
def pathInside (container : Container) (path : Path) : Except Failure Path :=
  match path.stripBase? container.project with
  | some rest => .ok (mount.join rest)
  | none => .error (.outsideProject path container.project)

/-- The mount that a container is launched with.  A relative directory would name a volume. -/
def bindMount (container : Container) : Except Failure String :=
  if container.project.isAbsolute then .ok s!"{container.project.text}:{mount.text}:rw"
  else
    .error (.command "bind mount"
      s!"project directory {container.project.text} is not absolute")

/-- The identifier of the running container. -/
def running (container : Container) : Except Failure String :=
  match container.held with
  | some identifier => .ok identifier
  | none => .error .notStarted

open Environment

/-- The package manager of build images. -/
def imagePackages : PackageTool := .apk

/-- Launch a container, unless one is held. -/
def launch (container : Container) : Work (Container × Except Failure Unit) :=
  match container.held, container.bindMount with
  | some _, _ => return (container, .ok ())
  | none, .error failure => return (container, .error failure)
  | none, .ok mount => do
    match ← ask (.launch container.image mount) with
    | .error failure => return (container, .error failure)
    | .ok identifier => return ({ container with held := some identifier }, .ok ())

/-- Let go of the held container, if there is one, and have it removed. -/
def discard (container : Container) : Work (Container × Except Failure Unit) :=
  match container.held with
  | none => return (container, .ok ())
  | some identifier => do
    let removed ← ask (.remove identifier)
    return ({ container with held := none }, removed)

/-- Run a program in the held container. -/
def execute (container : Container) (program : String) (arguments : List String) :
    Work (Except Failure String) :=
  match container.running with
  | .error failure => return .error failure
  | .ok identifier => ask (.execute identifier program arguments)

/-- Run a program in the held container on a path of the project. -/
def executeOn (container : Container) (program : String) (path : Path) :
    Work (Except Failure String) :=
  match container.pathInside path with
  | .error failure => return .error failure
  | .ok inside => execute container program [inside.text]

/-- Strip an executable of the project. -/
def strip (container : Container) (executable : Path) : Work (Except Failure Unit) := do
  let printed ← executeOn container "strip" executable
  return printed.map fun _ => ()

/-- The libraries that an executable of the project loads. -/
def dependencies (container : Container) (executable : Path) :
    Work (Except Failure LibrarySet) := do
  let printed ← executeOn container "ldd" executable
  return printed.map Listing.libraries

/-- The libraries of the image's C library package. -/
def baseLibraries (container : Container) : Work (Except Failure LibrarySet) := do
  let printed ← execute container imagePackages.query.1 imagePackages.query.2
  return printed.map fun listing => .ofList ((imagePackages.contents listing).map .ofPath)

end Container

end FunctionBundler
