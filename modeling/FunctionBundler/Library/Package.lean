/-
Module: FunctionBundler.Library.Package
Purpose: The shared objects of a system's C library package, by the package manager's listing.
Trusted boundary: none
Main exports:
  PackageTool, PackageTool.query, PackageTool.contents, PackageTool.render, isSharedObject
-/
import FunctionBundler.Path

namespace FunctionBundler

/-!
The C library that an executable is linked to comes from a package, and the
package's files are the base libraries of a build environment.  Two package
managers list absolute paths, directories included; the third prints a header and
then paths relative to the root.  A file counts when its name is that of a shared
object: something, `.so`, and any number of version groups.
-/

/-- Whether a text is a sequence of version groups, each a dot and one or more ASCII digits. -/
def isVersion (text : List Char) : Bool :=
  match Text.pieces '.' text with
  | [] :: groups => groups.all fun group => group ≠ [] && group.all Char.isDigit
  | _ => false

/-- Whether a text is `.so` and version groups. -/
def isObjectEnding (text : List Char) : Bool :=
  ".so".toList.isPrefixOf text && isVersion (text.drop 3)

/-- Whether some ending of a text is `.so` and version groups. -/
def endsAsObject : List Char → Bool
  | [] => false
  | c :: rest => isObjectEnding (c :: rest) || endsAsObject rest

/-- Whether a file name is that of a shared object. -/
def isSharedObject (name : String) : Bool :=
  match name.toList with
  | [] => false
  | c :: rest => (c :: rest).all (· ≠ '/') && endsAsObject rest

/-- A package manager that can list the C library package. -/
inductive PackageTool where
  | dpkg
  | rpm
  | apk
deriving Repr, DecidableEq

namespace PackageTool

/-- The package managers in the order in which a system is searched for them. -/
def all : List PackageTool := [.dpkg, .rpm, .apk]

/-- The program and the arguments that list the package's files. -/
def query : PackageTool → String × List String
  | .dpkg => ("dpkg-query", ["-L", "libc6"])
  | .rpm => ("rpm", ["-q", "-l", "glibc"])
  | .apk => ("apk", ["info", "--contents", "musl"])

/-- The lines of a listing that are not blank, trimmed. -/
def candidateLines (text : String) : List (List Char) :=
  ((Text.lines text.toList).map Text.trimBlank).filter (· ≠ [])

/-- The absolute paths that a listing names. -/
def listedPaths (tool : PackageTool) (text : String) : List Path :=
  match tool with
  | .apk =>
    (candidateLines text).drop 1 |>.map fun line =>
      ⟨String.ofList ('/' :: line.dropWhile (· = '/'))⟩
  | _ =>
    (candidateLines text).filter (·.head? = some '/') |>.map fun line => ⟨String.ofList line⟩

/-- The shared objects that a listing names, in its order and with repetitions. -/
def contents (tool : PackageTool) (text : String) : List Path :=
  (tool.listedPaths text).filter fun path => path.fileName?.any isSharedObject

/-- A listing of paths as the tool writes it, one line for each path, after a header if the tool
writes one. -/
def render (tool : PackageTool) (header : String) (paths : List Path) : List String :=
  match tool with
  | .apk => header :: paths.map fun path => String.ofList (path.chars.drop 1)
  | _ => paths.map (·.text)

end PackageTool

end FunctionBundler
