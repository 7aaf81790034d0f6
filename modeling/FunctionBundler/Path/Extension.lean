/-
Module: FunctionBundler.Path.Extension
Purpose: Stems and extensions of file names, and replacing an extension.
Trusted boundary: none
Main exports:
  Path.splitName, Path.fileStem?, Path.extension?, Path.withExtension
-/
import FunctionBundler.Path

namespace FunctionBundler.Path

/-!
A file name is split at its last dot, unless that dot is its first character.
Replacing an extension works on the text: it cuts as many bytes off the end as
the old extension has, and then writes the new extension after the stem of what
is left.  If nothing with a file name is left, that is the result.
-/

/-- The stem and the extension of a file name. -/
def splitName (name : List Char) : List Char × Option (List Char) :=
  let ending := (name.reverse.takeWhile (· ≠ '.')).reverse
  let start := name.take (name.length - ending.length - 1)
  if start = [] ∨ ending.length = name.length then (name, none) else (start, some ending)

/-- The file name without its extension. -/
def fileStem? (path : Path) : Option String :=
  path.fileName?.map fun name => String.ofList (splitName name.toList).1

/-- The extension of the file name. -/
def extension? (path : Path) : Option String :=
  path.fileName?.bind fun name => (splitName name.toList).2.map String.ofList

/-- Reversed characters without those that lie within the first `bytes` bytes; a character that
begins within them and ends beyond stays. -/
def dropBytes (bytes : Nat) : List Char → List Char
  | [] => []
  | c :: rest =>
    if c.utf8Size ≤ bytes ∧ 0 < bytes then dropBytes (bytes - c.utf8Size) rest else c :: rest

/-- A path without the last `bytes` bytes of its text. -/
def cutBytes (path : Path) (bytes : Nat) : Path :=
  ⟨String.ofList (dropBytes bytes path.chars.reverse).reverse⟩

/-- Write an extension after the stem of the file name, and cut the text there; a path without a
file name stays. -/
def setExtension (path : Path) (extension : String) : Path :=
  match path.fileStem? with
  | none => path
  | some stem =>
    let (head, body) := path.headAndBody
    ofPieces (head ++ body.dropLast ++ [stem.toList ++ '.' :: extension.toList])

/-- Replace the extension of a path. -/
def withExtension (path : Path) (extension : String) : Path :=
  (path.cutBytes (path.extension?.elim 0 String.utf8ByteSize)).setExtension extension

end FunctionBundler.Path
