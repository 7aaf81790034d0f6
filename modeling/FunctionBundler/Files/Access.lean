/-
Module: FunctionBundler.Files.Access
Purpose: What a computation wants from a file system, and how a file system answers.
Trusted boundary: none
Main exports:
  Access, Access.Answer, Files.answer
-/
import FunctionBundler.Files

namespace FunctionBundler

/-- A question to a file system, or a change to it. -/
inductive Access where
  | present (path : Path)
  | inspect (path : Path)
  | read (path : Path)
  | write (path : Path) (content : Bytes)
deriving DecidableEq

/-- What is answered. -/
abbrev Access.Answer : Access → Type
  | .present _ => Bool
  | .inspect _ => Except FileError FileStatus
  | .read _ => Except FileError Bytes
  | .write _ _ => Except FileError Unit

/-- How a file system answers, and the file system after it.  A failed write changes nothing. -/
def Files.answer (files : Files) : (access : Access) → access.Answer × Files
  | .present path => (files.exists path, files)
  | .inspect path => (files.status path, files)
  | .read path => (files.read path, files)
  | .write path content =>
    match files.write path content with
    | .ok changed => (.ok (), changed)
    | .error fault => (.error fault, files)

end FunctionBundler
