/-
Module: FunctionBundler.Archive
Purpose: The archive of one executable and its libraries.
Trusted boundary: none
Main exports:
  Archive, Archive.ofParts, Archive.pathFor, Archive.distinctNames, Archive.assemble, Archive.build
-/
import FunctionBundler.Archive.Bootstrap
import FunctionBundler.Archive.Writer
import FunctionBundler.Path.Extension

namespace FunctionBundler

/-!
An archive lists the libraries in path order, then the executable, then the
bootstrap script, each written as soon as it is read.  Of several libraries with one
file name the first in path order is bundled and the others are left out unread.  With
the C library, exactly one library must be a loader, and the script names it.
-/

/-- A finished archive: its entries, its bytes and their digest. -/
structure Archive where
  entries : List ArchiveEntry
  bytes : Bytes
  digest : Digest
deriving DecidableEq

namespace Archive

/-- An archive of which only the bytes are known. -/
def ofBytes (bytes : Bytes) : Archive :=
  ⟨[], bytes, Sha256.digest bytes⟩

/-- The size of an archive in bytes. -/
def size (archive : Archive) : Nat :=
  archive.bytes.length

/-- Where the archive of an executable is written: its path with the extension replaced. -/
def pathFor (executable : Path) : Path :=
  executable.withExtension "zip"

/-- The permission bits of executables and loaders. -/
def executableMode : Nat := 0o755

/-- The permission bits of other libraries. -/
def libraryMode : Nat := 0o644

/-- The entry of a bundled library. -/
def libraryEntry (library : LibraryPath) (data : Bytes) : ArchiveEntry :=
  { name := "lib/" ++ library.fileName
    mode := if library.isLoader then executableMode else libraryMode
    modified := .epoch
    data }

/-- The entry of the executable. -/
def executableEntry (name : String) (data : Bytes) : ArchiveEntry :=
  { name := "bin/" ++ name, mode := executableMode, modified := .epoch, data }

/-- The entry of the bootstrap script. -/
def bootstrapEntry (script : String) : ArchiveEntry :=
  { name := "bootstrap", mode := executableMode, modified := .epoch, data := Bytes.ofText script }

/-- The libraries of a list whose file name is neither among the given names nor that of an
earlier library of the list. -/
def distinctNames (seen : List String) : List LibraryPath → List LibraryPath
  | [] => []
  | library :: rest =>
    if library.fileName ∈ seen then distinctNames seen rest
    else library :: distinctNames (library.fileName :: seen) rest

/-- Where the bytes of a library are read from. -/
def source (sysroot : Option Path) (library : LibraryPath) : Path :=
  match sysroot with
  | some root => library.under root
  | none => library.path

/-- The only loader among libraries. -/
def soleLoader (libraries : LibrarySet) : Except Failure LibraryPath :=
  match libraries.loaders with
  | [loader] => .ok loader
  | candidates => .error (.ambiguousLoader candidates)

/-- The bootstrap script for an executable and its libraries. -/
def script (libraries : LibrarySet) (withLibc : Bool) (name : String) : Except Failure String :=
  if withLibc then
    (soleLoader libraries).map fun loader => Bootstrap.withLoader loader.fileName name
  else
    .ok (Bootstrap.withSearchPath name)

/-- Write the last entries of an archive behind those that were taken, and finish it. -/
def close (writer : Zip.Writer) (taken last : List ArchiveEntry) : Except Failure Archive :=
  Except.mapError .archive do
    writer.putAll taken last
    let bytes ← writer.finish (taken ++ last)
    return ⟨taken ++ last, bytes, Sha256.digest bytes⟩

/-- The archive of an executable with a name, its content and a start script, behind the entries of
its libraries. -/
def ofParts (writer : Zip.Writer) (name script : String) (program : Bytes)
    (libraries : List ArchiveEntry) : Except Failure Archive :=
  close writer libraries [executableEntry name program, bootstrapEntry script]

section

variable {m : Type → Type} [Monad m] (writer : Zip.Writer)
  (read : Path → m (Except FileError Bytes))

/-- Read the libraries to be bundled and put each behind what was taken before, in their order, up
to the first that cannot be read or is not taken. -/
def readLibraries (sysroot : Option Path) (taken : List ArchiveEntry) :
    List LibraryPath → m (Except Failure (List ArchiveEntry))
  | [] => pure (.ok [])
  | library :: rest => do
    match ← read (source sysroot library) with
    | .error fault => pure (.error (.missingLibrary library (source sysroot library) fault))
    | .ok data =>
      let entry := libraryEntry library data
      match writer.put taken entry with
      | .error fault => pure (.error (.archive fault))
      | .ok () =>
        match ← readLibraries sysroot (taken ++ [entry]) rest with
        | .error failure => pure (.error failure)
        | .ok entries => pure (.ok (entry :: entries))

/-- Assemble the archive of an executable and its libraries from files that `read` gives. -/
def assemble (executable : Path) (libraries : LibrarySet) (sysroot : Option Path)
    (withLibc : Bool) : m (Except Failure Archive) := do
  match ← read executable with
  | .error fault => pure (.error (.invalidExecutable executable fault.message))
  | .ok [] => pure (.error (.invalidExecutable executable "file is empty"))
  | .ok (byte :: bytes) =>
    match executable.fileName? with
    | none => pure (.error (.invalidExecutable executable "file name is not valid UTF-8"))
    | some name =>
      match script libraries withLibc name with
      | .error failure => pure (.error failure)
      | .ok text =>
        match ← readLibraries writer read sysroot [] (distinctNames [] libraries.paths) with
        | .error failure => pure (.error failure)
        | .ok entries => pure (ofParts writer name text (byte :: bytes) entries)

end

/-- The archive of an executable and its libraries, all files being read from one file system. -/
def build (writer : Zip.Writer) (files : Files) (executable : Path) (libraries : LibrarySet)
    (sysroot : Option Path) (withLibc : Bool) : Except Failure Archive :=
  Id.run (assemble writer files.read executable libraries sysroot withLibc)

end Archive

end FunctionBundler
