/-
Module: FunctionBundler.Path
Purpose: File paths: their text, their components, and how paths are built from paths.
Trusted boundary: none
Main exports:
  Path, Component, Path.components, Path.ofComponents, Path.normalize, Path.join, Path.fileName?,
  Path.parent?, Path.stripBase?, Path.absolute?, Path.compare
-/
import FunctionBundler.Text.Blank

namespace FunctionBundler

/-!
A path has two views.  Its *text* is what messages show and what programs are
given; joining, cutting an extension and taking the parent keep the text of what
they do not touch.  Its *components* are what the text means: repeated
separators and `.` vanish, except that a relative path may begin with `.`, and
`..` stays.  Two texts with the same components are spellings of one path, and
paths are ordered by their components.
-/

/-- A component of a path. -/
inductive Component where
  | root
  | current
  | parent
  | name (text : String)
deriving DecidableEq, Inhabited

namespace Component

/-- The text of a component between separators; the root has none. -/
def text : Component → String
  | .root => ""
  | .current => "."
  | .parent => ".."
  | .name text => text

/-- The place of a kind of component in the order: the root first, names last. -/
def rank : Component → Nat
  | .root => 0
  | .current => 1
  | .parent => 2
  | .name _ => 3

/-- Components are ordered by their kind, and names by their characters, which is also the order of
their UTF-8 bytes. -/
def compare : Component → Component → Ordering :=
  compareLex (compareOn rank) (compareOn text)

instance : Std.TransCmp compare := inferInstanceAs (Std.TransCmp (compareLex _ _))

/-- Only a component itself compares equal to it. -/
theorem eq_of_compare_eq {c d : Component} (same : compare c d = .eq) : c = d := by
  simp only [compare, compareLex_eq_eq, compareOn, Std.LawfulEqOrd.compare_eq_iff_eq] at same
  cases c <;> cases d <;> simp_all [rank, text]

instance : Std.LawfulEqCmp compare where
  eq_of_compare := eq_of_compare_eq

/-- The component of a piece between separators, for the pieces that are components anywhere in
a path. -/
def ofPiece? (piece : List Char) : Option Component :=
  match piece with
  | [] => none
  | ['.'] => none
  | ['.', '.'] => some .parent
  | _ => some (.name (String.ofList piece))

end Component

/-- A path, as it is written. -/
structure Path where
  text : String
deriving DecidableEq, Inhabited

namespace Path

/-- The characters of a path's text. -/
def chars (path : Path) : List Char :=
  path.text.toList

/-- Whether a path starts at the root. -/
def isAbsolute (path : Path) : Bool :=
  path.chars.head? = some '/'

/-- The pieces of a path's text between separators. -/
def piecesOf (path : Path) : List (List Char) :=
  Text.pieces '/' path.chars

/-- What a path means. -/
def components (path : Path) : List Component :=
  let body := path.piecesOf.filterMap Component.ofPiece?
  if path.isAbsolute then .root :: body
  else if path.piecesOf.head? = some ['.'] then .current :: body
  else body

/-- Pieces put together again with separators between them. -/
def ofPieces (parts : List (List Char)) : Path :=
  ⟨String.ofList (List.intercalate ['/'] parts)⟩

/-- The plain spelling of a list of components. -/
def ofComponents : List Component → Path
  | .root :: rest =>
    ⟨String.ofList ('/' :: List.intercalate ['/'] (rest.map fun c => c.text.toList))⟩
  | components => ofPieces (components.map fun c => c.text.toList)

/-- A path in its plain spelling. -/
def normalize (path : Path) : Path :=
  ofComponents path.components

/-- The order of paths is the lexicographic order of their components. -/
def compare (first second : Path) : Ordering :=
  List.compareLex Component.compare first.components second.components

/-- A path seen from a base.  An absolute path is itself; joining the empty path to a base that
does not end in a separator adds one. -/
def join (base path : Path) : Path :=
  if path.isAbsolute then path
  else if base.text = "" ∨ base.chars.getLast? = some '/' then ⟨base.text ++ path.text⟩
  else ⟨base.text ++ "/" ++ path.text⟩

/-- The last component, if it is a name. -/
def fileName? (path : Path) : Option String :=
  match path.components.getLast? with
  | some (.name text) => some text
  | _ => none

/-- Whether a piece at the end of a path stands for nothing. -/
def isIdle (piece : List Char) : Bool :=
  piece = [] ∨ piece = ['.']

/-- Pieces without the idle ones at their end. -/
def trimPieces (parts : List (List Char)) : List (List Char) :=
  (parts.reverse.dropWhile isIdle).reverse

/-- The pieces of a path: those that mark where it starts (the empty piece before the root's
separator, or a leading `.`), and the others without the idle ones at the end. -/
def headAndBody (path : Path) : List (List Char) × List (List Char) :=
  match path.piecesOf with
  | first :: rest =>
    if path.isAbsolute ∨ first = ['.'] then ([first], trimPieces rest)
    else ([], trimPieces (first :: rest))
  | [] => ([], [])

/-- The text of a path's start and body; the root alone is written with its separator. -/
def ofHeadAndBody (head body : List (List Char)) : Path :=
  if head = [[]] ∧ body = [] then ⟨"/"⟩ else ofPieces (head ++ body)

/-- The path without its last component; the root and the empty path have no parent. -/
def parent? (path : Path) : Option Path :=
  match path.headAndBody with
  | (head, []) => if head = [['.']] then some ⟨""⟩ else none
  | (head, body) => some (ofHeadAndBody head (trimPieces body.dropLast))

/-- Drop pieces from the front until they have given `count` components. -/
def dropComponents : (count : Nat) → List (List Char) → List (List Char)
  | 0, parts => parts
  | _ + 1, [] => []
  | count + 1, piece :: rest =>
    if isIdle piece then dropComponents (count + 1) rest else dropComponents count rest

/-- The rest of a path whose first components are those of a base.  The text of the rest is kept,
without idle pieces at its ends. -/
def stripBase? (path base : Path) : Option Path :=
  match base.components with
  | [] => some (ofHeadAndBody path.headAndBody.1 path.headAndBody.2)
  | first :: others =>
    if (first :: others).isPrefixOf path.components then
      let parts :=
        match first with
        | .root => dropComponents others.length path.piecesOf.tail
        | .current => dropComponents others.length path.piecesOf.tail
        | _ => dropComponents (others.length + 1) path.piecesOf
      some (ofPieces (trimPieces (parts.dropWhile isIdle)))
    else none

/-- The absolute path that a path means in a working directory, in plain spelling except that
`..` components, a trailing separator and exactly two leading separators stay.  The empty path
means nothing. -/
def absolute? (path working : Path) : Option Path :=
  if path.text = "" then none
  else
    let names := path.components.filter fun c => c ≠ .root ∧ c ≠ .current
    let start : Path :=
      if path.isAbsolute then
        if path.chars.take 2 = ['/', '/'] ∧ path.chars.take 3 ≠ ['/', '/', '/'] then ⟨"//"⟩
        else ⟨"/"⟩
      else working
    let plain := names.foldl (fun base c => base.join ⟨c.text⟩) start
    some (if path.chars.getLast? = some '/' then plain.join ⟨""⟩ else plain)

end Path

end FunctionBundler
