/-
Module: FunctionBundler.Files
Purpose: A file system: regular files and directories, and how paths are looked up in it.
Trusted boundary: the file system is assumed to have no symbolic links and to deny no access
Main exports:
  Files, FileError, FileError.message, Files.locate, Files.read, Files.write, Files.status,
  Files.exists
-/
import FunctionBundler.Bytes
import FunctionBundler.Path

namespace FunctionBundler

/-!
A file system holds regular files and directories under lists of names, and has a
working directory from which relative paths start.  That directory is there, and so is
every one above it up to the root.  Looking a path up walks its pieces from left to right
and stops at the first fault.  There are no links, so `..` leads to the directory that
contains the current one.
-/

/-- Why a file cannot be reached, read or written. -/
inductive FileError where
  | notFound
  | permissionDenied
  | notDirectory
  | isDirectory
  | nameTooLong
  | nulInName
  | notText
deriving Repr, DecidableEq

/-- The wording of a file error. -/
def FileError.message : FileError → String
  | .notFound => "No such file or directory (os error 2)"
  | .permissionDenied => "Permission denied (os error 13)"
  | .notDirectory => "Not a directory (os error 20)"
  | .isDirectory => "Is a directory (os error 21)"
  | .nameTooLong => "File name too long (os error 36)"
  | .nulInName => "file name contained an unexpected NUL byte"
  | .notText => "stream did not contain valid UTF-8"

/-- What is stored under a list of names. -/
inductive Node where
  | directory
  | file (content : Bytes)
deriving DecidableEq

/-- A file system: what is stored, by the names from the root, and the working directory. -/
structure Files where
  working : List String
  nodes : List (List String × Node)

/-- What a look at a file tells: whether it is a regular file, and its size. -/
structure FileStatus where
  isRegular : Bool
  size : Nat
deriving Repr, DecidableEq

namespace Files

/-- What is stored under a list of names; the working directory and those above it are always
directories, the root among them. -/
def node? (files : Files) (names : List String) : Option Node :=
  if names <+: files.working then some .directory else files.nodes.lookup names

/-- The place that a piece of a path means in a directory, whether or not something is there. -/
def child (here : List String) (piece : String) : Except FileError (List String) :=
  if piece = "." then .ok here
  else if piece = ".." then .ok here.dropLast
  else if piece.utf8ByteSize > 255 then .error .nameTooLong
  else .ok (here ++ [piece])

/-- One step of a walk, from a directory to a place that exists. -/
def stepInto (files : Files) (here : List String) (piece : String) :
    Except FileError (List String) :=
  match files.node? here with
  | some .directory => do
    let next ← child here piece
    if (files.node? next).isSome then return next else .error .notFound
  | some (.file _) => .error .notDirectory
  | none => .error .notFound

/-- The place that a list of pieces leads to. -/
def walk (files : Files) (here : List String) (pieces : List String) :
    Except FileError (List String) :=
  pieces.foldlM files.stepInto here

/-- The pieces of a path between separators. -/
def pieceNames (path : Path) : List String :=
  (path.piecesOf.filter (· ≠ [])).map String.ofList

/-- Whether a path is written with a separator at its end. -/
def endsInSeparator (path : Path) : Bool :=
  path.chars.getLast? = some '/'

/-- The pieces that a path is walked by: a separator at its end asks for a directory. -/
def steps (path : Path) : List String :=
  if endsInSeparator path then pieceNames path ++ ["."] else pieceNames path

/-- Where the walk of a path starts. -/
def origin (files : Files) (path : Path) : List String :=
  if path.isAbsolute then [] else files.working

/-- Faults of a path's text, before any part of it is looked up. -/
def checkText (path : Path) : Except FileError Unit :=
  if path.chars.contains (Char.ofNat 0) then .error .nulInName
  else if path.text = "" then .error .notFound
  else if path.text.utf8ByteSize ≥ 4096 then .error .nameTooLong
  else .ok ()

/-- The names under which an existing file or directory is stored. -/
def locate (files : Files) (path : Path) : Except FileError (List String) := do
  checkText path
  files.walk (files.origin path) (steps path)

/-- The content of a regular file. -/
def read (files : Files) (path : Path) : Except FileError Bytes := do
  let names ← files.locate path
  match files.node? names with
  | some (.file content) => return content
  | some .directory => .error .isDirectory
  | none => .error .notFound

/-- The text of a content that has to be text. -/
def textOf (content : Bytes) : Except FileError String :=
  match Bytes.text? content with
  | some text => .ok text
  | none => .error .notText

/-- The content of a regular file that has to be text. -/
def readText (files : Files) (path : Path) : Except FileError String :=
  (files.read path).bind textOf

/-- What a look at a file or directory tells. -/
def status (files : Files) (path : Path) : Except FileError FileStatus := do
  let names ← files.locate path
  match files.node? names with
  | some (.file content) => return ⟨true, content.length⟩
  | some .directory => return ⟨false, 0⟩
  | none => .error .notFound

/-- Whether a path leads to something. -/
def «exists» (files : Files) (path : Path) : Bool :=
  (files.locate path).isOk

/-- Store a node under a list of names. -/
def put (files : Files) (names : List String) (node : Node) : Files :=
  { files with nodes := (names, node) :: files.nodes.filter (·.1 ≠ names) }

/-- Store a file and the directories above it. -/
def plant (files : Files) (names : List String) (node : Node) : Files :=
  let parents := (List.range names.length).drop 1 |>.map names.take
  (parents.foldl (fun files above =>
    if (files.node? above).isSome then files else files.put above .directory) files).put names node

/-- Remove what is stored under a list of names. -/
def remove (files : Files) (names : List String) : Files :=
  { files with nodes := files.nodes.filter (·.1 ≠ names) }

/-- The names under which a file is written: its directory has to exist, it may be new, and a
separator at the end would ask for a directory. -/
def target (files : Files) (path : Path) : Except FileError (List String) := do
  checkText path
  let names := pieceNames path
  let above ← files.walk (files.origin path) names.dropLast
  match names.getLast?, files.node? above with
  | none, _ => .error .isDirectory
  | _, some (.file _) => .error .notDirectory
  | _, none => .error .notFound
  | some name, some .directory =>
    if endsInSeparator path then .error .isDirectory else child above name

/-- Write a regular file, new or in place of an existing one. -/
def write (files : Files) (path : Path) (content : Bytes) : Except FileError Files := do
  let names ← files.target path
  match files.node? names with
  | some .directory => .error .isDirectory
  | _ => return files.put names (.file content)

end Files

end FunctionBundler
