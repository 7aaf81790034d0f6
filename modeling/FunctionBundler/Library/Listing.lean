/-
Module: FunctionBundler.Library.Listing
Purpose: The libraries named by a dependency listing as the dynamic linker prints it.
Trusted boundary: none
Main exports:
  Listing.libraryOfLine?, Listing.libraries, Listing.Line, Listing.Line.render
-/
import FunctionBundler.Library

namespace FunctionBundler.Listing

/-!
A listing has one line for each dependency.  A resolved one is written
`/path (address)` or `name => /path (address)`, with single blanks between the
words; everything else (the kernel's virtual object, headers, notices, libraries
that were not found) names no library.  `Line` is the grammar that such listings
are written in, and `Line.render` writes it.
-/

/-- The library that a line names. -/
def libraryOfLine? (line : List Char) : Option LibraryPath :=
  match Text.pieces ' ' (Text.trimBlank line) with
  | [path, _] =>
    if path.head? = some '/' then some (.ofPath ⟨String.ofList path⟩) else none
  | [_, arrow, path, _] =>
    if arrow = ['=', '>'] ∧ path.head? = some '/' then some (.ofPath ⟨String.ofList path⟩)
    else none
  | _ => none

/-- The libraries that a listing names. -/
def libraries (text : String) : LibrarySet :=
  .ofList ((Text.lines text.toList).filterMap libraryOfLine?)

/-- A line of a listing. -/
inductive Line where
  | bare (path address : String)
  | arrow (name path address : String)
  | virtual (name address : String)
  | notFound (name : String)
  | header (word : String)
deriving Repr, DecidableEq

/-- The text of a line, without indentation and line end. -/
def Line.render : Line → String
  | .bare path address => s!"{path} {address}"
  | .arrow name path address => s!"{name} => {path} {address}"
  | .virtual name address => s!"{name} {address}"
  | .notFound name => s!"{name} => not found"
  | .header word => word

/-- The path on a line that names a library. -/
def Line.path? : Line → Option String
  | .bare path _ => some path
  | .arrow _ path _ => some path
  | _ => none

end FunctionBundler.Listing
